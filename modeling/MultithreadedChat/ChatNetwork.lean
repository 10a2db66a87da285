import MultithreadedChat.Foundation.Mailbox
import MultithreadedChat.Server.ChatService
import MultithreadedChat.Client.NameAgreement
import MultithreadedChat.Server.Identity

/-! # Server and clients

The server, which handles one command at a time, with a client at every address, which handles
one response at a time, and the datagrams on their way: what the server sends to an address is
handled there in the order in which it was sent, sooner or later. A client keeps the name
under which it is connected, if it is (`MultithreadedChat.ClientState.seat`), and so does the
server. As long as addresses and names are keys, applying to a client what is still on its way
to it gives what the server holds, so a client to which nothing is on its way agrees with the
server (`MultithreadedChat.clients_agree`).
-/

namespace MultithreadedChat

open CString LinkedList

/-- The name under which a client takes itself to be connected. -/
def ClientState.seat (client : ClientState) : Option (List UInt8) :=
  if client.connected then some client.name else none

/-! ## What a datagram does to a seat -/

/-- A client handles a datagram, over what its buffer and its stack hold. -/
def Takes (client : ClientState) (datagram : Datagram) (after : ClientState) : Prop :=
  ∃ leftover stack,
    handleCliSideCmd client (relayed datagram.response leftover stack) = .ok after

/-- A client that handles the datagram changes a view so. -/
abbrev Datagram.Acts {α : Type*} (view : ClientState → α) (datagram : Datagram)
    (change : α → α) : Prop :=
  Mailbox.Acts Takes view datagram change

/-- The datagrams turn what the clients see from one value into another. -/
abbrev Updates {α : Type*} (view : ClientState → α) (sent : List Datagram)
    (before after : SockAddrIn → α) : Prop :=
  Mailbox.Updates Takes view Datagram.addr sent before after

/-- A string without a terminator stays in front. -/
theorem exists_ofBytes_append (size : ℕ) [NeZero size] {front : List UInt8} (noNul : 0 ∉ front)
    (fits : front.length < size) (rest : List UInt8) :
    ∃ kept, (CString.ofBytes size (front ++ rest)).bytes = front ++ kept := by
  have whole := List.takeWhile_eq_self_iff.mp (takeWhile_noNul noNul)
  refine ⟨(rest.takeWhile (· ≠ 0)).take (size - 1 - front.length), ?_⟩
  simp only [CString.ofBytes]
  rw [List.takeWhile_append_of_pos whole, List.take_append,
    List.take_of_length_le (by omega)]

/-- The string opens with the keyword of a kind, a dollar sign and a blank. -/
def Opens (kind : CommandKind) (response : List UInt8) : Prop :=
  ∃ keyword rest, kind.keyword = some keyword ∧ response = keyword ++ ascii "$ " ++ rest

theorem Opens.snprintf {kind : CommandKind} {keyword : List UInt8}
    (spelled : kind.keyword = some keyword) {size : ℕ} (room : nameSize + 2 < size)
    (rest : List UInt8) : Opens kind (snprintf size (keyword ++ ascii "$ " ++ rest)) := by
  have short := (CommandKind.keyword_plain spelled).2.2.2.2
  have opening : (ascii "$ ").length = 2 := rfl
  refine ⟨keyword, rest.take (size - 1 - (keyword ++ ascii "$ ").length), spelled, ?_⟩
  rw [MultithreadedChat.snprintf, List.take_append, List.take_of_length_le]
  rw [List.length_append, opening]
  omega

/-- What opens with a keyword is handled as its kind. -/
theorem Opens.kind_eq {kind : CommandKind} {response : List UInt8}
    (opens : Opens kind response) (leftover : List UInt8) (stack : CommandMemory) :
    (relayed response leftover stack).kind = some kind := by
  obtain ⟨keyword, rest, spelled, rfl⟩ := opens
  obtain ⟨nonempty, noBlank, noDollar, noNul, short⟩ := CommandKind.keyword_plain spelled
  have opening : (ascii "$ ").length = 2 := rfl
  have plain : 0 ∉ keyword ++ ascii "$ " := List.not_mem_append noNul (by decide)
  have fits : (keyword ++ ascii "$ ").length < queueMsgSize := by
    rw [List.length_append, opening]
    dsimp only [nameSize, queueMsgSize] at short ⊢
    omega
  obtain ⟨kept, front⟩ := exists_ofBytes_append queueMsgSize plain fits (rest ++ 0 :: leftover)
  have words : (relayed (keyword ++ ascii "$ " ++ rest) leftover stack).words =
      keyword :: (kept.words blank).take (maxCommandLen - 2) := by
    rw [Delivery.words, relayed, List.append_assoc _ rest, front,
      messageWords_keyword nonempty noBlank noDollar]
  rw [Delivery.kind, words]
  have known : kind ≠ .unknown := by
    rintro rfl
    cases spelled
  exact congrArg some ((CommandKind.ofKeyword_eq_iff known keyword).mpr spelled)

/-- Responses of the kind leave a view of the client. -/
def CommandKind.Keeps {α : Type*} (kind : CommandKind) (view : ClientState → α) : Prop :=
  ∀ (client after : ClientState) (delivery : Delivery), delivery.kind = some kind →
    handleCliSideCmd client delivery = .ok after → view after = view client

section Keeps

variable {α : Type*} {view : ClientState → α} {kind : CommandKind}

theorem Opens.acts {datagram : Datagram} (opens : Opens kind datagram.response)
    (keeps : kind.Keeps view) : datagram.Acts view id :=
  fun _ _ ⟨leftover, stack, handled⟩ =>
    keeps _ _ _ (opens.kind_eq leftover stack) handled

theorem acts_ping (keeps : CommandKind.ping.Keeps view) (address : SockAddrIn) :
    (ping address).Acts view id := by
  rintro client after ⟨leftover, stack, handled⟩
  have arrived : (relayed (ping address).response leftover stack).kind = some .ping := by
    rw [Delivery.kind, ping, relayed_words (show 0 ∉ ascii "ping$" by decide)
      (show (ascii "ping$").length < queueMsgSize by decide)]
    rfl
  exact keeps _ _ _ arrived handled

theorem opens_connsuccess (request : Request) : Opens .connSuccess (connsuccess request).response :=
  ⟨ascii "connsuccess", (request.command.args 0).bytes, rfl, rfl⟩

theorem opens_answer {keyword : List UInt8} (spelled : kind.keyword = some keyword)
    (request : Request) : Opens kind (answer request (keyword ++ ascii "$ ")).response :=
  .snprintf spelled (show nameSize + 2 < maxMessage by decide) _

theorem opens_permissionDenied (address : SockAddrIn) :
    Opens .error (permissionDenied address).response :=
  ⟨ascii "error", ascii "Permission denied. Only admin can kick users.", rfl, rfl⟩

theorem opens_unknownCommand (address : SockAddrIn) :
    Opens .error (unknownCommand address).response :=
  ⟨ascii "error", ascii "Unknown command", rfl, rfl⟩

section Formatted

variable (rest : List UInt8)

theorem opens_say : Opens .say (snprintf responseBufferSize (ascii "say" ++ ascii "$ " ++ rest)) :=
  .snprintf rfl (by decide) rest

theorem opens_error :
    Opens .error (snprintf responseBufferSize (ascii "error" ++ ascii "$ " ++ rest)) :=
  .snprintf rfl (by decide) rest

end Formatted

theorem opens_saytoMissing (command : Command) : Opens .error (saytoMissingResponse command) :=
  opens_error (ascii "User not found. (" ++ (command.args 0).bytes ++ ascii ")")

theorem opens_saytoReceiver (sender : Name) (command : Command) :
    Opens .say (saytoReceiverResponse sender command) :=
  opens_say (sender.bytes ++ ascii ":(private message) " ++ joinArgs command.args 1 maxMessage)

theorem opens_saytoSender (command : Command) : Opens .say (saytoSenderResponse command) :=
  opens_say (ascii "you to " ++ (command.args 0).bytes ++ ascii ":(private message) " ++
    joinArgs command.args 1 maxMessage)

theorem opens_kicked (name : Name) : Opens .say (kickedResponse name) :=
  opens_say (ascii "SERVER: " ++ name.bytes ++ ascii " has been kicked")

theorem opens_historyLine (address : SockAddrIn) (message : List UInt8) :
    Opens .say (historyLine address message).response :=
  ⟨ascii "say", message, rfl, rfl⟩

end Keeps

/-- Only three kinds of responses change a seat. -/
theorem keeps_seat {kind : CommandKind}
    (other : kind ∉ [CommandKind.connSuccess, .disconnResponse, .rename]) :
    kind.Keeps ClientState.seat := by
  intro client after delivery arrived handled
  rw [handleCliSideCmd, executeServerCommand, delivery.ofCode_kind, arrived] at handled
  cases kind with
  | connSuccess | disconnResponse | rename => exact absurd (by decide) other
  | say =>
      obtain ⟨line, -, room, rfl⟩ := sayExec_eq_ok_iff.mp handled
      rfl
  | connFailed =>
      obtain ⟨-, rfl⟩ := executeConnectFailed_eq_ok_iff.mp handled
      rfl
  | error =>
      obtain ⟨-, rfl⟩ := executeErrorResponse_eq_ok_iff.mp handled
      rfl
  | _ =>
      cases handled
      rfl

theorem say_keeps_seat : CommandKind.say.Keeps ClientState.seat := keeps_seat (by decide)

theorem error_keeps_seat : CommandKind.error.Keeps ClientState.seat := keeps_seat (by decide)

theorem seats_disconnresponse (address : SockAddrIn) :
    (disconnresponse address).Acts ClientState.seat fun _ => none := by
  rintro client after ⟨leftover, stack, handled⟩
  have arrived : (relayed (disconnresponse address).response leftover stack).kind =
      some .disconnResponse := by
    rw [Delivery.kind, disconnresponse,
      relayed_words (show 0 ∉ ascii "disconnresponse$" by decide)
        (show (ascii "disconnresponse$").length < queueMsgSize by decide)]
    rfl
  rw [handleCliSideCmd, executeServerCommand, Delivery.ofCode_kind, arrived] at handled
  cases handled
  rfl

theorem seats_connsuccess {request : Request} (parsed : request.command.Parsed) :
    (connsuccess request).Acts ClientState.seat fun _ => some (request.command.args 0).bytes := by
  rintro client after ⟨leftover, stack, handled⟩
  rw [takes_connsuccess parsed client leftover stack] at handled
  cases handled
  rfl

theorem seats_rename {request : Request} (parsed : request.command.Parsed) :
    (answer request (ascii "rename$ ")).Acts ClientState.seat fun seat =>
      seat.map fun _ => (request.command.args 0).bytes := by
  rintro client after ⟨leftover, stack, handled⟩
  rw [takes_rename parsed client leftover stack] at handled
  cases handled
  unfold ClientState.seat
  cases client.connected <;> rfl

/-! ## What the service does to the seats -/

namespace ChatService

/-- The name of the member at an address. -/
def nameAt (service : ChatService) (address : SockAddrIn) : Option Name :=
  (service.memberAt address).map Client.clientName

/-- Addresses and names are keys. -/
def Keyed (service : ChatService) : Prop :=
  (service.members.map Client.clientAddress).Nodup ∧ (service.members.map Client.clientName).Nodup

/-- The addresses and names of the members. -/
def keys (service : ChatService) : List (SockAddrIn × Name) :=
  service.members.map fun member => (member.clientAddress, member.clientName)

theorem nameAt_eq_keys (service : ChatService) (address : SockAddrIn) :
    service.nameAt address = (service.keys.find? fun key => key.1 == address).map Prod.snd := by
  rw [keys, nameAt, memberAt, List.find?_map, Option.map_map]
  rfl

theorem keyed_iff_keys (service : ChatService) :
    service.Keyed ↔ (service.keys.map Prod.fst).Nodup ∧ (service.keys.map Prod.snd).Nodup := by
  rw [keys, List.map_map, List.map_map]
  rfl

variable {service : ChatService}

/-- Changes of other fields leave the keys. -/
theorem keys_change (sought : Client → Bool) (f : Client → Client)
    (address : ∀ member, (f member).clientAddress = member.clientAddress)
    (name : ∀ member, (f member).clientName = member.clientName) :
    (service.change sought f).keys = service.keys := by
  simp only [keys, change]
  induction service.members with
  | nil => rfl
  | cons member members ih =>
      rw [List.replaceF_cons]
      cases sought member with
      | true => exact congrArg (· :: _) (Prod.ext (address member) (name member))
      | false => exact congrArg (_ :: ·) ih

theorem keys_note (request : Request) (now : ℤ) :
    (service.note request now).keys = service.keys := by
  unfold note
  split
  · exact keys_change _ (Client.touched now) (fun _ => rfl) fun _ => rfl
  · rfl

/-- Renaming the member at an address. -/
theorem nameAt_renamed {sender : Client} {renamed : SockAddrIn}
    (present : service.memberAt renamed = some sender) (name : Name) (address : SockAddrIn) :
    (service.change (fun member => member.clientAddress == renamed)
        fun member => { member with clientName := name }).nameAt address =
      if address = renamed then some name else service.nameAt address := by
  obtain ⟨matched, before, after, shape, missed⟩ := List.find?_eq_some_iff_append.mp present
  simp only [nameAt, memberAt, change, shape] at matched ⊢
  clear present shape
  induction before with
  | nil =>
      have here : sender.clientAddress = renamed := by simpa using matched
      subst here
      by_cases same : address = sender.clientAddress
      · subst same
        simp
      · simp [same, Ne.symm same]
  | cons first before ih =>
      have other : (first.clientAddress == renamed) = false := by
        simpa using missed first List.mem_cons_self
      have rest := ih fun member among => missed member (List.mem_cons_of_mem _ among)
      rw [List.cons_append, List.replaceF_cons_of_none _ (by simp [other]), List.find?_cons,
        List.find?_cons]
      by_cases found : first.clientAddress = address
      · have apart : address ≠ renamed := by
          rintro rfl
          simp [found] at other
        simp [found, apart]
      · rw [beq_eq_false_iff_ne.mpr found]
        exact rest

/-- A newcomer at an unused address. -/
theorem nameAt_welcome {request : Request} (now : ℤ)
    (new : service.nameAt request.fromAddr = none) (address : SockAddrIn) :
    (service.welcome request now).1.nameAt address =
      if address = request.fromAddr then some (request.command.args 0)
      else service.nameAt address := by
  simp only [nameAt, memberAt, welcome, List.find?_append] at new ⊢
  by_cases same : address = request.fromAddr
  · subst same
    rw [Option.map_eq_none_iff] at new
    simp [new]
  · have apart : request.fromAddr ≠ address := Ne.symm same
    simp [same, apart]

/-- Where addresses and names are keys, the member who leaves is the one of the name. -/
theorem nameAt_dismiss (keyed : service.Keyed) {gone : Client} (member : gone ∈ service.members)
    (address : SockAddrIn) : (service.dismiss gone.clientName).nameAt address =
      if address = gone.clientAddress then none else service.nameAt address := by
  obtain ⟨before, after, shape⟩ := List.append_of_mem member
  obtain ⟨addresses, names⟩ := keyed
  rw [shape, List.map_append, List.map_cons, List.nodup_append] at addresses names
  have left : (before ++ gone :: after).eraseP
      (fun member => member.clientName == gone.clientName) = before ++ after := by
    rw [List.eraseP_append_right, List.eraseP_cons_of_pos (by simp)]
    intro other front
    have apart := names.2.2 _ (List.mem_map_of_mem front) gone.clientName List.mem_cons_self
    simpa using apart
  simp only [nameAt, memberAt, dismiss, shape, left, List.find?_append, List.find?_cons]
  by_cases same : address = gone.clientAddress
  · subst same
    have front :
        before.find? (fun member => member.clientAddress == gone.clientAddress) = none := by
      refine List.find?_eq_none.mpr fun other among => ?_
      have apart := addresses.2.2 _ (List.mem_map_of_mem among) gone.clientAddress
        List.mem_cons_self
      simpa using apart
    have back : after.find? (fun member => member.clientAddress == gone.clientAddress) = none := by
      refine List.find?_eq_none.mpr fun other among => ?_
      have apart : gone.clientAddress ≠ other.clientAddress := fun shared =>
        (List.nodup_cons.mp addresses.2.1).1 (shared ▸ List.mem_map_of_mem among)
      simpa using Ne.symm apart
    simp [front, back]
  · have apart : (gone.clientAddress == address) = false := by simpa using Ne.symm same
    simp [same, apart]

theorem called_eq (keyed : service.Keyed) {member : Client} (listed : member ∈ service.members) :
    service.memberCalled member.clientName = some member := by
  cases found : service.memberCalled member.clientName with
  | none =>
      have missed := List.find?_eq_none.mp found member listed
      simp at missed
  | some other =>
      have named : other.clientName = member.clientName := by simpa using List.find?_some found
      rw [List.inj_on_of_nodup_map keyed.2 (List.mem_of_find?_eq_some found) listed named]

end ChatService

/-- Private messages change no seat. -/
theorem seats_whisper (service : ChatService) (sender : Client) (command : Command) :
    ∀ datagram ∈ service.whisper sender command, datagram.Acts ClientState.seat id := by
  intro datagram member
  rw [ChatService.whisper] at member
  split at member
  · obtain rfl := List.mem_singleton.mp member
    exact (opens_saytoMissing command).acts error_keeps_seat
  · rcases List.mem_pair.mp member with rfl | rfl
    · exact (opens_saytoReceiver sender.clientName command).acts say_keeps_seat
    · exact (opens_saytoSender command).acts say_keeps_seat

section Updates

variable {α : Type*} {view : ClientState → α} {sent : List Datagram} {before after : SockAddrIn → α}

theorem updates_of_forall (same : ∀ datagram ∈ sent, datagram.Acts view id)
    (kept : ∀ address, after address = before address) : Updates view sent before after := by
  obtain rfl : after = before := funext kept
  exact .of_forall same

/-- Only the first datagram changes the view. -/
theorem updates_cons {datagram : Datagram} {change : α → α} (acts : datagram.Acts view change)
    (same : ∀ datagram ∈ sent, datagram.Acts view id)
    (changed : ∀ address, after address =
      if address = datagram.addr then change (before address) else before address) :
    Updates view (datagram :: sent) before after :=
  .cons acts changed (.of_forall same)

theorem updates_nil (kept : ∀ address, after address = before address) :
    Updates view [] before after :=
  updates_of_forall (List.forall_mem_nil _) kept

/-- A single datagram that leaves the view leaves the values. -/
theorem updates_unseen {datagram : Datagram} (same : datagram.Acts view id)
    (kept : ∀ address, after address = before address) : Updates view [datagram] before after :=
  updates_of_forall (List.forall_mem_singleton.mpr same) kept

/-- A single datagram changes the value for its receiver. -/
theorem updates_single {datagram : Datagram} {change : α → α} (acts : datagram.Acts view change)
    (changed : ∀ address, after address =
      if address = datagram.addr then change (before address) else before address) :
    Updates view [datagram] before after :=
  updates_cons acts (List.forall_mem_nil _) changed

end Updates

namespace ChatService

/-- The name of the member at an address, as a client keeps it. -/
def seatAt (service : ChatService) (address : SockAddrIn) : Option (List UInt8) :=
  (service.nameAt address).map CString.bytes

/-- A command with a word in it; a connection comes from an unused address. -/
def Proper (service : ChatService) : ServerEvent → Prop
  | .command request _ => request.command.Parsed ∧
    (request.command.kind = .conn → service.nameAt request.fromAddr = none)
  | .managerPass _ => True

variable {service : ChatService}

theorem seatAt_eq_ite {other : ChatService} {place : SockAddrIn} {name : Option Name}
    (changed : ∀ address, other.nameAt address =
      if address = place then name else service.nameAt address) (address : SockAddrIn) :
    other.seatAt address = if address = place then name.map CString.bytes
      else service.seatAt address := by
  rw [seatAt, changed address]
  split <;> rfl

/-- A member of a keyed service who leaves is told, and nobody else. -/
theorem reseats_dismiss (keyed : service.Keyed) {gone : Client} (member : gone ∈ service.members)
    {sent : List Datagram} (same : ∀ datagram ∈ sent, datagram.Acts ClientState.seat id) :
    Updates ClientState.seat (disconnresponse gone.clientAddress :: sent) service.seatAt
      (service.dismiss gone.clientName).seatAt :=
  updates_cons (seats_disconnresponse gone.clientAddress) same
    (seatAt_eq_ite (nameAt_dismiss keyed member))

theorem reseats_execute (keyed : service.Keyed) {request : Request} {now : ℤ}
    (parsed : request.command.Parsed)
    (new : request.command.kind = .conn → service.nameAt request.fromAddr = none)
    {service' : ChatService} {sent : List Datagram}
    (done : service.execute request now = .ok (service', sent)) :
    Updates ClientState.seat sent service.seatAt service'.seatAt := by
  have listed : ∀ {member}, service.memberAt request.fromAddr = some member →
      member ∈ service.members := List.mem_of_find?_eq_some
  unfold execute at done
  cases kind : request.command.kind with
  | conn =>
      simp only [kind] at done
      cases done
      refine updates_cons (seats_connsuccess parsed) (fun datagram member => ?_)
        (seatAt_eq_ite (nameAt_welcome now (new kind)))
      obtain ⟨line, -, rfl⟩ := List.mem_map.mp member
      exact (opens_historyLine _ _).acts say_keeps_seat
  | say =>
      cases present : service.memberAt request.fromAddr with
      | none =>
          rw [kind, present] at done
          cases done
      | some sender =>
          rw [kind, present] at done
          cases done
          refine updates_of_forall (fun datagram member => ?_) fun _ => rfl
          obtain ⟨member, -, rfl⟩ := List.mem_map.mp member
          exact (opens_historyLine _ _).acts say_keeps_seat
  | sayto =>
      cases present : service.memberAt request.fromAddr with
      | none =>
          rw [kind, present] at done
          cases done
      | some sender =>
          rw [kind, present] at done
          cases done
          exact updates_of_forall (seats_whisper _ _ _) fun _ => rfl
  | rename =>
      cases present : service.memberAt request.fromAddr with
      | none =>
          rw [kind, present] at done
          cases done
      | some sender =>
          rw [kind, present] at done
          cases done
          refine updates_single (seats_rename parsed) fun address => ?_
          have seat := seatAt_eq_ite (nameAt_renamed present (request.command.args 0)) address
          rw [seat]
          by_cases here : address = request.fromAddr
          · subst here
            simp [answer, seatAt, nameAt, present]
          · simp [answer, here]
  | disconn =>
      cases present : service.memberAt request.fromAddr with
      | none =>
          rw [kind, present] at done
          cases done
          exact updates_nil fun _ => rfl
      | some sender =>
          rw [kind, present] at done
          have called := called_eq keyed (listed present)
          have parts : Except.ok (service.part sender.clientName) = .ok (service', sent) := done
          rw [part, called] at parts
          cases parts
          exact reseats_dismiss keyed (listed present) (List.forall_mem_nil _)
  | kick =>
      simp only [kind] at done
      split at done
      · cases called : service.memberCalled (request.command.args 0) with
        | none =>
            rw [expel, called] at done
            cases done
            refine updates_nil fun address => ?_
            have missed := List.find?_eq_none.mp called
            have unchanged : service.dismiss (request.command.args 0) = service := by
              rw [dismiss, List.eraseP_of_forall_not missed]
            rw [unchanged]
        | some gone =>
            have named : gone.clientName = request.command.args 0 := by
              simpa using List.find?_some called
            rw [expel, called, ← named] at done
            cases done
            refine reseats_dismiss keyed (List.mem_of_find?_eq_some called)
              fun datagram member => ?_
            obtain ⟨left, -, rfl⟩ := List.mem_map.mp member
            exact (opens_kicked _).acts say_keeps_seat
      · cases done
        exact updates_unseen ((opens_permissionDenied _).acts error_keeps_seat) fun _ => rfl
  | mute =>
      simp only [kind] at done
      cases done
      refine updates_unseen ?_ fun _ => rfl
      exact (@opens_answer .mute (ascii "mute") rfl request).acts
        (keeps_seat (by decide))
  | unmute =>
      simp only [kind] at done
      cases done
      refine updates_unseen ?_ fun _ => rfl
      exact (@opens_answer .unmute (ascii "unmute") rfl request).acts
        (keeps_seat (by decide))
  | unknown =>
      simp only [kind] at done
      cases done
      exact updates_unseen ((opens_unknownCommand _).acts error_keeps_seat) fun _ => rfl
  | _ =>
      simp only [kind] at done
      cases done
      exact updates_nil fun _ => rfl

theorem nameAt_note (request : Request) (now : ℤ) (address : SockAddrIn) :
    (service.note request now).nameAt address = service.nameAt address := by
  rw [nameAt_eq_keys, keys_note, ← nameAt_eq_keys]

theorem reseats_patrol (keyed : service.Keyed) (currentTime : ℤ) :
    Updates ClientState.seat (service.patrol currentTime).2 service.seatAt
      (service.patrol currentTime).1.seatAt := by
  rw [patrol]
  cases found : service.members.find? fun member => member.overdue currentTime with
  | none => exact updates_nil fun _ => rfl
  | some member =>
      by_cases unpinged : member.pingSent = 0
      · simp only [unpinged, ↓reduceIte]
        refine updates_unseen (acts_ping (keeps_seat (by decide)) _) fun address => ?_
        rw [seatAt, nameAt_eq_keys, keys_change _
          (fun member => { member with pingSent := currentTime }) (fun _ => rfl) fun _ => rfl,
          ← nameAt_eq_keys]
        rfl
      · simp only [unpinged, ↓reduceIte]
        exact reseats_dismiss keyed (List.mem_of_find?_eq_some found)
          (List.forall_mem_nil _)

/-- What is sent for an event gives every client the seat it has after the event. -/
theorem reseats_serve (keyed : service.Keyed) {event : ServerEvent} (proper : service.Proper event)
    {service' : ChatService} {sent : List Datagram}
    (served : service.serve event = .ok (service', sent)) :
    Updates ClientState.seat sent service.seatAt service'.seatAt := by
  cases event with
  | command request now =>
      obtain ⟨parsed, new⟩ := proper
      have noted : (service.note request now).seatAt = service.seatAt := by
        funext address
        rw [seatAt, nameAt_note]
        rfl
      have still : (service.note request now).Keyed := by
        rw [keyed_iff_keys, keys_note, ← keyed_iff_keys]
        exact keyed
      have done := reseats_execute still parsed
        (fun connects => (nameAt_note request now _).trans (new connects)) served
      rwa [noted] at done
  | managerPass currentTime =>
      have same : service.patrol currentTime = (service', sent) := Except.ok.inj served
      have patrolled := reseats_patrol keyed currentTime
      rwa [same] at patrolled

end ChatService

/-! ## The network -/

/-- The server, a client at every address, and what is on its way to each of them. -/
structure ChatNetwork where
  server : Server
  inbox : SockAddrIn → List Datagram
  client : SockAddrIn → ClientState

/-- The server handles an event, or the client at an address handles the datagram that was
sent to it first, over what its buffer and its stack held. -/
inductive NetworkLabel
  | serve (event : ServerEvent)
  | deliver (address : SockAddrIn) (leftover : List UInt8) (stack : CommandMemory)

inductive NetworkStep : ChatNetwork → NetworkLabel → ChatNetwork → Prop
  | serve {network : ChatNetwork} {event : ServerEvent} {server : Server} {sent : List Datagram} :
      handle network.server event = .ok (server, sent) →
      NetworkStep network (.serve event) { network with
        server := server
        inbox := fun address =>
          network.inbox address ++ Mailbox.addressedTo Datagram.addr address sent }
  | deliver {network : ChatNetwork} {address : SockAddrIn} {datagram : Datagram}
      {rest : List Datagram} {leftover : List UInt8} {stack : CommandMemory}
      {client : ClientState} :
      network.inbox address = datagram :: rest →
      handleCliSideCmd (network.client address) (relayed datagram.response leftover stack) =
        .ok client →
      NetworkStep network (.deliver address leftover stack) { network with
        inbox := Function.update network.inbox address rest
        client := Function.update network.client address client }

/-- Nobody is connected at the start, and no client has logged a message. -/
def networkSystem : TransitionSystem ChatNetwork NetworkLabel where
  initial network := network.server = Server.start ∧ (∀ address, network.inbox address = []) ∧
    ∀ address, (network.client address).connected = false ∧
      (network.client address).messageCount = 0
  step := NetworkStep

/-- Commands have a word in them, connections bring unused addresses and names, and clients
are renamed to unused names. -/
def NetworkLabel.Proper (network : ChatNetwork) : NetworkLabel → Prop
  | .serve event => FreshKeys network.server event ∧
    ∀ request now, event = .command request now → request.command.Parsed
  | .deliver .. => True

/-- The server serves a keyed service, and what is on its way to a client turns its seat into
the one it has there. -/
structure ChatNetwork.Agrees (network : ChatNetwork) (service : ChatService) : Prop where
  serves : network.server.Serves service
  keyed : network.server.registry.Keyed
  pending : ∀ address, Mailbox.Pending Takes ClientState.seat (network.inbox address)
    (network.client address) (service.seatAt address)

/-- The keys of a registry are those of the service. -/
theorem Server.Serves.keyed_iff {server : Server} {service : ChatService}
    (serves : server.Serves service) : service.Keyed ↔ server.registry.Keyed := by
  rw [ChatService.Keyed, ← serves.members, Registry.clients, List.map_map, List.map_map]
  rfl

theorem Server.Serves.nameAt_eq {server : Server} {service : ChatService}
    (serves : server.Serves service) (address : SockAddrIn) :
    service.nameAt address = server.registry.nameAt address := by
  rw [ChatService.nameAt, serves.memberAt_eq, Option.map_map]
  rfl

/-- The service follows the server, and what is sent keeps the seats pending. -/
theorem ChatNetwork.Agrees.serve {before after : ChatNetwork} {event : ServerEvent}
    {service : ChatService} (agrees : before.Agrees service)
    (proper : (NetworkLabel.serve event).Proper before)
    (moved : NetworkStep before (.serve event) after) :
    ∃ service' sent, service.serve event = .ok (service', sent) ∧ service.Proper event ∧
      after.Agrees service' ∧ after.client = before.client ∧ after.inbox = fun address =>
        before.inbox address ++ Mailbox.addressedTo Datagram.addr address sent := by
  obtain ⟨serves, keyed, pending⟩ := agrees
  obtain ⟨fresh, parsed⟩ := proper
  cases moved with
  | @serve _ server sent handled =>
      have keyed' := (keyed_step_iff serves.formed handled keyed).mpr fresh
      have alike := serves.handle event
      rw [handled] at alike
      generalize served : service.serve event = result at alike
      obtain ⟨serves'⟩ := alike
      have proper' : service.Proper event := by
        cases event with
        | command request now =>
            refine ⟨parsed request now rfl, fun connects => ?_⟩
            rw [serves.nameAt_eq, Registry.nameAt, Option.map_eq_none_iff,
              Registry.atAddress_eq_none]
            exact (fresh.1 connects).1
        | managerPass => trivial
      have reseats := ChatService.reseats_serve (serves.keyed_iff.mpr keyed) proper' served
      exact ⟨_, sent, rfl, proper', ⟨serves', keyed', Mailbox.Pending.send pending reseats⟩, rfl,
        rfl⟩

theorem ChatNetwork.Agrees.deliver {before after : ChatNetwork} {address : SockAddrIn}
    {leftover : List UInt8} {stack : CommandMemory} {service : ChatService}
    (agrees : before.Agrees service)
    (moved : NetworkStep before (.deliver address leftover stack) after) :
    after.Agrees service := by
  cases moved with
  | deliver first handled =>
      exact ⟨agrees.serves, agrees.keyed,
        Mailbox.Pending.handle agrees.pending first ⟨_, _, handled⟩⟩

theorem agrees_start {network : ChatNetwork} (initial : networkSystem.initial network) :
    network.Agrees .start := by
  obtain ⟨started, empty, apart⟩ := initial
  refine ⟨started ▸ start_serves, started ▸ ⟨List.nodup_nil, List.nodup_nil⟩, fun address => ?_⟩
  rw [empty address, Mailbox.Pending.nil_iff, ClientState.seat, (apart address).1]
  rfl

/-- **Clients and server agree.** In every interleaving of the server with the clients in
which commands have a word in them and addresses and names stay keys, a client to which nothing
is on its way takes itself to be connected exactly if its address is in the list, and under the
name that the server has for it. -/
theorem clients_agree {trace : List (ChatNetwork × NetworkLabel)} {network : ChatNetwork}
    (execution : networkSystem.Execution trace network)
    (proper : ∀ visit ∈ trace, visit.2.Proper visit.1) {address : SockAddrIn}
    (drained : network.inbox address = []) :
    (network.client address).seat =
      (network.server.registry.nameAt address).map CString.bytes := by
  have holds : ∃ service, network.Agrees service := by
    refine execution.guarded_invariant (I := fun network => ∃ service, network.Agrees service)
      (G := fun network label => label.Proper network)
      (fun _ initial => ⟨_, agrees_start initial⟩) ?_ proper
    rintro before label after ⟨service, agrees⟩ proper moved
    cases label with
    | serve event =>
        obtain ⟨service', sent, -, -, agrees', -⟩ := agrees.serve proper moved
        exact ⟨service', agrees'⟩
    | deliver => exact ⟨service, agrees.deliver moved⟩
  obtain ⟨service, agrees⟩ := holds
  have pending := agrees.pending address
  rw [drained, Mailbox.Pending.nil_iff] at pending
  rw [pending, ← agrees.serves.nameAt_eq, ChatService.seatAt]

/-- A client connects and renames itself. -/
theorem clients_agree_renamed :
    ∃ (trace : List (ChatNetwork × NetworkLabel)) (network : ChatNetwork),
      networkSystem.Execution trace network ∧
      (network.client (sampleRequest .conn 1 "").fromAddr).seat = some (ascii "B") := by
  let address := (sampleRequest .conn 1 "").fromAddr
  let stack : CommandMemory := ⟨0, .strncpy _ []⟩
  have connParsed : (commandOf "conn$ A").Parsed := ⟨_, _, by decide, rfl⟩
  have renameParsed : (commandOf "rename$ B").Parsed := ⟨_, _, by decide, rfl⟩
  let connects : Request := ⟨commandOf "conn$ A", address⟩
  let renames : Request := ⟨commandOf "rename$ B", address⟩
  let apart : ClientState := { ClientState.fresh with connected := false }
  have start : networkSystem.Execution [] ⟨.start, fun _ => [], fun _ => apart⟩ :=
    .start ⟨rfl, fun _ => rfl, fun _ => ⟨rfl, rfl⟩⟩
  have connected := start.step
    (show NetworkStep _ (.serve (.command connects 0)) _ from .serve rfl)
  have told := connected.step (show NetworkStep _ (.deliver address [] stack) _ from
    .deliver rfl (@takes_connsuccess connects connParsed apart [] stack))
  have renamed := told.step
    (show NetworkStep _ (.serve (.command renames 1)) _ from .serve rfl)
  have retold := renamed.step (show NetworkStep _ (.deliver address [] stack) _ from
    .deliver rfl (@takes_rename renames renameParsed _ [] stack))
  have agreed := @clients_agree _ _ retold (by
    simp only [List.nil_append, List.cons_append, List.mem_cons, List.not_mem_nil, or_false]
    rintro visit (rfl | rfl | rfl | rfl)
    · refine ⟨by unfold FreshKeys; decide, ?_⟩
      rintro request now ⟨⟩
      exact connParsed
    · trivial
    · refine ⟨by unfold FreshKeys; decide, ?_⟩
      rintro request now ⟨⟩
      exact renameParsed
    · trivial) address rfl
  exact ⟨_, _, retold, agreed.trans rfl⟩

end MultithreadedChat
