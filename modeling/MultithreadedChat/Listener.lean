import MultithreadedChat.QueueFifo

/-! # The listeners

One round of `listener` and `cli_listener`: a datagram is read into the buffer on the
stack, over what the buffer held, and the buffer is appended to the queue. The number
of bytes read only decides whether the append happens, so a datagram without a NUL is
followed by the leftover bytes (`MultithreadedChat.noBleed_iff`).
-/

namespace MultithreadedChat

open ByteBuffer

abbrev bufferSize : ℕ := 1024

/-- The buffer of a listener after `udp_socket_read`, which writes the bytes of the
datagram over what was there, and its result. -/
def udpSocketRead (buffer : ByteBuffer bufferSize) (datagram : List UInt8) :
    ByteBuffer bufferSize × ℕ :=
  (buffer.write 0 datagram, datagram.length)

/-- A round of `listener`. -/
def listener (queue : Queue) (buffer : ByteBuffer bufferSize) (datagram : List UInt8)
    (clientAddress : SockAddrIn) : Queue :=
  let (clientRequest, rc) := udpSocketRead buffer datagram
  if rc > 0 then queue.append clientRequest.bytes (some clientAddress) else queue

/-- A round of `cli_listener`. -/
def cliListener (queue : Queue) (buffer : ByteBuffer bufferSize) (datagram : List UInt8) : Queue :=
  let (serverResponse, rc) := udpSocketRead buffer datagram
  if rc > 0 then queue.append serverResponse.bytes none else queue

/-- Whatever the buffers held before, both listeners leave the same queue, and its new
slot holds the datagram up to its first NUL or its end, as much of it as a slot takes. -/
def NoBleed (datagram : List UInt8) : Prop :=
  ∀ (queue : Queue) (buffer buffer' : ByteBuffer bufferSize) (addr : SockAddrIn),
    (listener queue buffer datagram addr = listener queue buffer' datagram addr ∧
      cliListener queue buffer datagram = cliListener queue buffer' datagram) ∧
    ((listener queue buffer datagram addr).data queue.tail).Holds
      (.stored datagram (some addr)) ∧
    ((cliListener queue buffer datagram).data queue.tail).Holds (.stored datagram none)

section Datagrams

variable {datagram : List UInt8}

theorem udpSocketRead_bytes (fits : datagram.length ≤ bufferSize) (buffer : ByteBuffer bufferSize) :
    (udpSocketRead buffer datagram).1.bytes = datagram ++ buffer.bytes.drop datagram.length :=
  buffer.bytes_write_zero fits

/-- A NUL in the datagram, or enough bytes to fill a slot, hide what follows it. -/
theorem ofBytes_append (closed : 0 ∈ datagram ∨ queueMsgSize - 1 ≤ datagram.length)
    (leftover : List UInt8) :
    CString.ofBytes queueMsgSize (datagram ++ leftover) =
      CString.ofBytes queueMsgSize datagram := by
  apply CString.ext
  simp only [CString.ofBytes]
  by_cases terminated : 0 ∈ datagram
  · have shorter : (datagram.takeWhile (· ≠ 0)).length ≠ datagram.length := by
      intro whole
      have same := (List.takeWhile_prefix (l := datagram) (· ≠ 0)).eq_of_length whole
      have kept := List.takeWhile_eq_self_iff.mp same 0 terminated
      simp at kept
    rw [List.takeWhile_append, if_neg shorter]
  · have whole := CString.takeWhile_noNul terminated
    rw [List.takeWhile_append_of_pos (List.takeWhile_eq_self_iff.mp whole), whole,
      List.take_append_of_le_length (closed.resolve_left terminated)]

/-- Appending the buffer is appending the datagram. -/
theorem append_read (fits : datagram.length ≤ bufferSize)
    (closed : 0 ∈ datagram ∨ queueMsgSize - 1 ≤ datagram.length) (queue : Queue)
    (buffer : ByteBuffer bufferSize) (fromAddr : Option SockAddrIn) :
    queue.append (udpSocketRead buffer datagram).1.bytes fromAddr =
      queue.append datagram fromAddr := by
  have same : storedMsg (udpSocketRead buffer datagram).1.bytes = storedMsg datagram := by
    apply storedMsg_congr
    rw [udpSocketRead_bytes fits, ofBytes_append closed]
  unfold Queue.append
  dsimp only
  rw [← storedMsg, ← storedMsg, same]

/-- An unterminated datagram that does not fill a slot is stored with the leftover bytes. -/
theorem stored_leftover (unterminated : 0 ∉ datagram) (short : datagram.length < queueMsgSize - 1)
    (leftover : List UInt8) (present : 0 ∉ leftover)
    (long : queueMsgSize - 1 ≤ (datagram ++ leftover).length) :
    CString.ofBytes queueMsgSize (datagram ++ leftover) ≠
      CString.ofBytes queueMsgSize datagram := by
  intro same
  have lengths := congrArg (fun text => text.bytes.length) same
  simp only [CString.ofBytes] at lengths
  rw [CString.takeWhile_noNul unterminated,
    CString.takeWhile_noNul (by simp [unterminated, present]), List.length_take,
    List.length_take] at lengths
  omega

theorem listener_eq (received : 0 < datagram.length) (queue : Queue)
    (buffer : ByteBuffer bufferSize) (addr : SockAddrIn) :
    listener queue buffer datagram addr =
      queue.append (udpSocketRead buffer datagram).1.bytes (some addr) :=
  if_pos received

theorem cliListener_eq (received : 0 < datagram.length) (queue : Queue)
    (buffer : ByteBuffer bufferSize) :
    cliListener queue buffer datagram =
      queue.append (udpSocketRead buffer datagram).1.bytes none :=
  if_pos received

/-- What a buffer of ones held is stored behind a short datagram without a terminator. -/
theorem not_noBleed (received : 0 < datagram.length) (fits : datagram.length ≤ bufferSize)
    (unterminated : 0 ∉ datagram) (short : datagram.length < queueMsgSize - 1) :
    ¬ NoBleed datagram := by
  intro noBleed
  have cleared : QueueNode := ⟨strncpy queueMsgSize [], ⟨0, 0, 0, 0⟩, false⟩
  let buffer : ByteBuffer bufferSize := ⟨List.replicate bufferSize 1, List.length_replicate⟩
  have holds := (noBleed (queueInit fun _ => cleared) buffer buffer ⟨0, 0, 0, 0⟩).2.1.text
  have appended := (@Queue.append_holds (queueInit fun _ => cleared)
    (udpSocketRead buffer datagram).1.bytes (some ⟨0, 0, 0, 0⟩)).text
  rw [listener_eq received] at holds
  have same := CString.bytes_injective (appended.symm.trans holds)
  rw [Message.stored, Message.stored, udpSocketRead_bytes fits] at same
  refine stored_leftover unterminated short _ ?_ ?_ same
  · intro nul
    have leftover := List.eq_of_mem_replicate (List.mem_of_mem_drop nul)
    cases leftover
  · rw [List.length_append, List.length_drop, List.length_replicate]
    dsimp only [bufferSize, queueMsgSize] at fits short ⊢
    omega

/-- **Leftover bytes in the receive buffer.** A datagram is queued as it is, whatever the
buffer held, exactly if it contains a NUL or has at least `QUEUE_MSG_SIZE - 1` bytes. -/
theorem noBleed_iff (received : 0 < datagram.length) (fits : datagram.length ≤ bufferSize) :
    NoBleed datagram ↔ 0 ∈ datagram ∨ queueMsgSize - 1 ≤ datagram.length := by
  constructor
  · intro noBleed
    by_contra open_
    obtain ⟨unterminated, short⟩ := not_or.mp open_
    exact not_noBleed received fits unterminated (Nat.lt_of_not_le short) noBleed
  · intro closed queue buffer buffer' addr
    rw [listener_eq received, listener_eq received, cliListener_eq received,
      cliListener_eq received, append_read fits closed, append_read fits closed,
      append_read fits closed, append_read fits closed]
    exact ⟨⟨rfl, rfl⟩, Queue.append_holds .., Queue.append_holds ..⟩

/-- A datagram of the client program, with its terminator. -/
theorem noBleed_terminated : NoBleed (CString.ascii "say$ hi" ++ [0]) :=
  (noBleed_iff (by decide) (by decide)).mpr (.inl (by decide))

/-- The word of a short datagram without a terminator runs on into the leftover bytes. -/
theorem bleed_unterminated : ¬ NoBleed (CString.ascii "say$ hi") :=
  not_noBleed (by decide) (by decide) (by decide) (by decide)

end Datagrams

end MultithreadedChat
