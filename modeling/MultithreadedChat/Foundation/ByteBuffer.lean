import Mathlib.Data.List.GetD
import Mathlib.Data.List.TakeWhile
import MultithreadedChat.Foundation.Words

/-! # Byte arrays and the C string functions on them

The contents of a `char[size]` array, and the library functions that read and
change such an array in place. The string at an offset is the bytes up to the next
NUL (`ByteBuffer.string`); a pointer into the array is its offset.
-/

/-- The bytes of an array of `size` bytes. -/
@[ext] structure ByteBuffer (size : ℕ) where
  bytes : List UInt8
  length_eq : bytes.length = size
  deriving DecidableEq

namespace ByteBuffer

variable {size : ℕ}

/-- The string that starts at an offset. -/
def string (buffer : ByteBuffer size) (offset : ℕ) : List UInt8 :=
  (buffer.bytes.drop offset).takeWhile (· ≠ 0)

/-- The byte at an offset. -/
def byte (buffer : ByteBuffer size) (offset : ℕ) : UInt8 := buffer.bytes.getD offset 0

def set (buffer : ByteBuffer size) (offset : ℕ) (byte : UInt8) : ByteBuffer size :=
  ⟨buffer.bytes.set offset byte, by rw [List.length_set, buffer.length_eq]⟩

/-- Writing bytes from an offset on. -/
def write (buffer : ByteBuffer size) (offset : ℕ) (bytes : List UInt8) : ByteBuffer size :=
  ⟨List.ofFn fun slot : Fin size =>
      if offset ≤ slot ∧ slot < offset + bytes.length then bytes.getD (slot - offset) 0
      else buffer.byte slot,
    List.length_ofFn⟩

variable (size) in
/-- `strncpy` over a whole array: the source up to its first NUL, as much of it as
fits, and NULs behind it. -/
def strncpy (source : List UInt8) : ByteBuffer size :=
  let text := (source.takeWhile (· ≠ 0)).take size
  ⟨text ++ List.replicate (size - text.length) 0, by
    have shorter : text.length ≤ size := List.length_take_le ..
    simp only [List.length_append, List.length_replicate]
    omega⟩

/-- The offset of the first `wanted` in the string at the start of the array. -/
def strchr (buffer : ByteBuffer size) (wanted : UInt8) : Option ℕ :=
  (buffer.string 0).idxOf? wanted

/-- `memmove` of `count` bytes within the array. -/
def memmove (buffer : ByteBuffer size) (target source count : ℕ) : ByteBuffer size :=
  ⟨List.ofFn fun slot : Fin size =>
      if target ≤ slot ∧ slot < target + count then buffer.byte (source + (slot - target))
      else buffer.byte slot,
    List.length_ofFn⟩

/-- `strtok` from where the last call stopped: the array with the token's end
terminated, the token if there is one, and where the next call starts. -/
def strtok (buffer : ByteBuffer size) (delimiter : UInt8) (start : ℕ) :
    ByteBuffer size × Option ℕ × ℕ :=
  let token := start + ((buffer.string start).takeWhile (· = delimiter)).length
  if buffer.byte token = 0 then (buffer, none, token)
  else
    let stop := token + ((buffer.string token).takeWhile (· ≠ delimiter)).length
    if buffer.byte stop = 0 then (buffer, some token, stop)
    else (buffer.set stop 0, some token, stop + 1)

/-! ## Strings and bytes -/

/-- The bytes before the first NUL of a list are known from what is read at each index,
reading NULs behind the end. -/
private theorem takeWhile_eq_of_getD {bytes text : List UInt8} (noNul : 0 ∉ text)
    (read : ∀ (i : ℕ) (within : i < text.length), bytes.getD i 0 = text[i])
    (stop : bytes.getD text.length 0 = 0) : bytes.takeWhile (· ≠ 0) = text := by
  induction text generalizing bytes with
  | nil =>
      cases bytes with
      | nil => rfl
      | cons first rest =>
          rw [List.length_nil, List.getD_cons_zero] at stop
          rw [List.takeWhile_cons_of_neg (by simpa using stop)]
  | cons symbol text ih =>
      have present : symbol ≠ 0 := fun nul => noNul (nul ▸ List.mem_cons_self)
      have head := read 0 (Nat.succ_pos _)
      cases bytes with
      | nil => exact (present head.symm).elim
      | cons first rest =>
          rw [List.getD_cons_zero, List.getElem_cons_zero] at head
          subst head
          rw [List.takeWhile_cons_of_pos (by simpa using present)]
          congr 1
          refine ih (fun nul => noNul (List.mem_cons_of_mem _ nul)) (fun i within => ?_) ?_
          · simpa using read (i + 1) (Nat.succ_lt_succ within)
          · simpa using stop

variable (buffer : ByteBuffer size)

theorem getD_drop (offset i : ℕ) :
    (buffer.bytes.drop offset).getD i 0 = buffer.byte (offset + i) := by
  simp only [byte, List.getD_eq_getElem?_getD, List.getElem?_drop]

/-- Behind the array only NULs are read. -/
theorem byte_of_le {offset : ℕ} (behind : size ≤ offset) : buffer.byte offset = 0 := by
  have outside : buffer.bytes.length ≤ offset := by rwa [buffer.length_eq]
  rw [byte, List.getD_eq_getElem?_getD, List.getElem?_eq_none outside]
  rfl

/-- Arrays with the same bytes are equal. -/
theorem ext_byte {other : ByteBuffer size} (same : ∀ i < size, buffer.byte i = other.byte i) :
    buffer = other := by
  refine ByteBuffer.ext (List.ext_getElem ?_ fun i inside inside' => ?_)
  · rw [buffer.length_eq, other.length_eq]
  · have read := same i (buffer.length_eq ▸ inside)
    rwa [byte, byte, List.getD_eq_getElem _ _ inside, List.getD_eq_getElem _ _ inside'] at read

variable {buffer} in
/-- A string is known from the bytes of the array. -/
theorem string_eq {offset : ℕ} {text : List UInt8} (noNul : 0 ∉ text)
    (read : ∀ (i : ℕ) (within : i < text.length), buffer.byte (offset + i) = text[i])
    (stop : buffer.byte (offset + text.length) = 0) : buffer.string offset = text := by
  refine takeWhile_eq_of_getD noNul (fun i within => ?_) ?_
  · rw [getD_drop, read i within]
  · rw [getD_drop, stop]

theorem string_noNul (offset : ℕ) : 0 ∉ buffer.string offset := by
  intro member
  have kept := List.mem_takeWhile_imp member
  simp at kept

theorem byte_string {offset i : ℕ} (within : i < (buffer.string offset).length) :
    buffer.byte (offset + i) = (buffer.string offset)[i] := by
  have initial : buffer.string offset <+: buffer.bytes.drop offset := List.takeWhile_prefix _
  have inside := within.trans_le initial.length_le
  rw [← getD_drop, List.getD_eq_getElem _ _ inside, initial.getElem within]

/-- A string ends at a NUL. -/
theorem byte_string_end (offset : ℕ) :
    buffer.byte (offset + (buffer.string offset).length) = 0 := by
  have parts : buffer.string offset ++ (buffer.bytes.drop offset).dropWhile (· ≠ 0) =
      buffer.bytes.drop offset := List.takeWhile_append_dropWhile
  have stopped := List.head?_dropWhile_not (fun byte : UInt8 => decide (byte ≠ 0))
    (buffer.bytes.drop offset)
  rw [← getD_drop, ← parts, List.getD_append_right _ _ _ _ le_rfl, Nat.sub_self]
  cases remaining : (buffer.bytes.drop offset).dropWhile (· ≠ 0) with
  | nil => rfl
  | cons first rest =>
      rw [remaining] at stopped
      simpa using stopped

/-- A string lies within the array. -/
theorem string_length_le (offset : ℕ) : (buffer.string offset).length ≤ size - offset := by
  have initial : buffer.string offset <+: buffer.bytes.drop offset := List.takeWhile_prefix _
  have short := initial.length_le
  rwa [List.length_drop, buffer.length_eq] at short

/-- There is a string at an offset exactly if the byte there is not NUL. -/
theorem string_eq_nil_iff {offset : ℕ} : buffer.string offset = [] ↔ buffer.byte offset = 0 := by
  constructor
  · intro nothing
    have stop := buffer.byte_string_end offset
    rwa [nothing] at stop
  · intro nul
    exact string_eq List.not_mem_nil (fun _ within => absurd within (Nat.not_lt_zero _)) nul

/-- The string that starts within another one is its rest. -/
theorem string_add {offset count : ℕ} (within : count ≤ (buffer.string offset).length) :
    buffer.string (offset + count) = (buffer.string offset).drop count := by
  have length : (offset + count) + ((buffer.string offset).drop count).length =
      offset + (buffer.string offset).length := by
    rw [List.length_drop]
    omega
  refine string_eq (fun nul => buffer.string_noNul offset (List.mem_of_mem_drop nul)) ?_ ?_
  · intro i inside
    rw [List.length_drop] at inside
    have reached : count + i < (buffer.string offset).length := by omega
    rw [Nat.add_assoc, buffer.byte_string reached, List.getElem_drop]
  · rw [length, byte_string_end]

/-- A string is determined by its bytes and the NUL behind them. -/
theorem string_congr {other : ByteBuffer size} {offset : ℕ}
    (same : ∀ i ≤ (buffer.string offset).length,
      other.byte (offset + i) = buffer.byte (offset + i)) :
    other.string offset = buffer.string offset := by
  refine string_eq (buffer.string_noNul offset) (fun i within => ?_) ?_
  · rw [same i (Nat.le_of_lt within), buffer.byte_string within]
  · rw [same _ le_rfl, byte_string_end]

/-- Bytes written within the array, and what was there elsewhere. -/
theorem byte_write (offset i : ℕ) {bytes : List UInt8} (fits : offset + bytes.length ≤ size) :
    (buffer.write offset bytes).byte i =
      if offset ≤ i ∧ i < offset + bytes.length then bytes.getD (i - offset) 0
      else buffer.byte i := by
  have read : (buffer.write offset bytes).byte i = if i < size then
      (if offset ≤ i ∧ i < offset + bytes.length then bytes.getD (i - offset) 0
        else buffer.byte i) else 0 := by
    simp only [byte, write, List.getD_eq_getElem?_getD, List.getElem?_ofFn]
    split <;> rfl
  by_cases inside : i < size
  · rw [read, if_pos inside]
  · rw [read, if_neg inside, if_neg (by omega), buffer.byte_of_le (Nat.le_of_not_lt inside)]

/-- Writing at the start of an array keeps what is behind. -/
theorem bytes_write_zero {bytes : List UInt8} (fits : bytes.length ≤ size) :
    (buffer.write 0 bytes).bytes = bytes ++ buffer.bytes.drop bytes.length := by
  have length := buffer.length_eq
  refine List.ext_getElem ?_ fun i inside inside' => ?_
  · rw [(buffer.write 0 bytes).length_eq, List.length_append, List.length_drop, length]
    omega
  · have read := buffer.byte_write 0 i (by omega : 0 + bytes.length ≤ size)
    rw [byte, List.getD_eq_getElem _ _ inside] at read
    rw [read, List.getElem_append]
    by_cases before : i < bytes.length
    · rw [if_pos (by omega), dif_pos before, Nat.sub_zero, List.getD_eq_getElem _ _ before]
    · rw [if_neg (by omega), dif_neg before, List.getElem_drop, byte,
        List.getD_eq_getElem _ _ (by
          rw [length]
          rw [(buffer.write 0 bytes).length_eq] at inside
          exact inside)]
      congr 1
      omega

theorem byte_set (offset i : ℕ) (byte : UInt8) :
    (buffer.set offset byte).byte i =
      if i = offset ∧ offset < size then byte else buffer.byte i := by
  simp only [ByteBuffer.byte, set, List.getD_eq_getElem?_getD, List.getElem?_set, buffer.length_eq]
  by_cases same : offset = i
  · subst same
    by_cases inside : offset < size
    · simp [inside]
    · rw [List.getElem?_eq_none (by rw [buffer.length_eq]; omega)]
      simp [inside]
  · simp [same, Ne.symm same]

/-- Terminating a string within or behind it. -/
theorem string_set {offset i : ℕ} (behind : offset ≤ i) :
    (buffer.set i 0).string offset = (buffer.string offset).take (i - offset) := by
  refine string_eq (fun nul => buffer.string_noNul offset (List.mem_of_mem_take nul)) ?_ ?_
  · intro j within
    have inside : j < i - offset ∧ j < (buffer.string offset).length := by
      rwa [List.length_take, Nat.lt_min] at within
    have elsewhere : offset + j ≠ i := by omega
    rw [byte_set, if_neg fun same => elsewhere same.1, buffer.byte_string inside.2,
      List.getElem_take]
  · rw [byte_set, List.length_take]
    by_cases reached : i - offset ≤ (buffer.string offset).length
    · rw [Nat.min_eq_left reached, Nat.add_sub_cancel' behind]
      by_cases inside : i < size
      · rw [if_pos ⟨rfl, inside⟩]
      · rw [if_neg fun holds => inside holds.2, buffer.byte_of_le (Nat.le_of_not_lt inside)]
    · rw [Nat.min_eq_right (Nat.le_of_not_le reached), byte_string_end]
      split <;> rfl

/-- Writing a byte before a string leaves it. -/
theorem string_set_of_lt {offset i : ℕ} (before : i < offset) (byte : UInt8) :
    (buffer.set i byte).string offset = buffer.string offset := by
  refine buffer.string_congr fun j _ => ?_
  have elsewhere : offset + j ≠ i := by omega
  rw [byte_set, if_neg fun same => elsewhere same.1]

theorem byte_strncpy (source : List UInt8) (i : ℕ) :
    (strncpy size source).byte i = ((source.takeWhile (· ≠ 0)).take size).getD i 0 := by
  simp only [byte, strncpy, List.getD_eq_getElem?_getD]
  by_cases within : i < ((source.takeWhile (· ≠ 0)).take size).length
  · rw [List.getElem?_append_left within]
  · rw [List.getElem?_append_right (Nat.le_of_not_lt within),
      List.getElem?_eq_none (Nat.le_of_not_lt within)]
    simp only [List.getElem?_replicate, Option.getD_none]
    split <;> rfl

/-- The string `strncpy` leaves at the start of the array. -/
theorem string_strncpy (source : List UInt8) :
    (strncpy size source).string 0 = (source.takeWhile (· ≠ 0)).take size := by
  refine string_eq (fun nul => ?_) (fun i within => ?_) ?_
  · have kept := List.mem_takeWhile_imp (List.mem_of_mem_take nul)
    simp at kept
  · rw [byte_strncpy, Nat.zero_add, List.getD_eq_getElem _ _ within]
  · rw [byte_strncpy, Nat.zero_add, List.getD_eq_default _ _ le_rfl]

/-! ## Tokens -/

private theorem drop_takeWhile (text : List UInt8) (keep : UInt8 → Bool) :
    text.drop (text.takeWhile keep).length = text.dropWhile keep := by
  nth_rewrite 2 [← List.takeWhile_append_dropWhile (p := keep) (l := text)]
  rw [List.drop_left]

variable {delimiter : UInt8} {start : ℕ}

/-- Without a word there is no token. -/
theorem strtok_none (blanks : (buffer.string start).words delimiter = []) :
    buffer.strtok delimiter start = (buffer, none, start + (buffer.string start).length) := by
  have whole : (buffer.string start).takeWhile (· = delimiter) = buffer.string start := by
    apply List.takeWhile_eq_self_iff.mpr
    simpa using List.words_eq_nil_iff.mp blanks
  rw [strtok, whole, if_pos (buffer.byte_string_end start)]

/-- What a call of `strtok` did that found a token. -/
structure Tokenised (before : ByteBuffer size) (delimiter : UInt8) (start : ℕ) (word : List UInt8)
    (rest : List (List UInt8)) (after : ByteBuffer size) (token next : ℕ) : Prop where
  found : after.string token = word
  remaining : (after.string next).words delimiter = rest
  inside : token + word.length ≤ next
  onward : start ≤ token
  framed : ∀ offset, offset + (before.string offset).length ≤ start →
    after.string offset = before.string offset

/-- The token is the first word, and the next call goes on behind it. -/
theorem strtok_some {word : List UInt8} {rest : List (List UInt8)}
    (first : (buffer.string start).words delimiter = word :: rest) :
    ∃ after token next, buffer.strtok delimiter start = (after, some token, next) ∧
      Tokenised buffer delimiter start word rest after token next := by
  obtain ⟨tail, body, behind⟩ := List.exists_split_word first
  obtain ⟨nonempty, plain⟩ := List.mem_words (first ▸ List.mem_cons_self)
  set token := start + ((buffer.string start).takeWhile (· = delimiter)).length with tokenEq
  have atToken : buffer.string token = word ++ tail := by
    rw [tokenEq, string_add _ (List.takeWhile_prefix _).length_le, drop_takeWhile, body]
  have present : buffer.byte token ≠ 0 := by
    intro nul
    rw [buffer.string_eq_nil_iff.mpr nul] at atToken
    exact nonempty (List.append_eq_nil_iff.mp atToken.symm).1
  have found : (buffer.string token).takeWhile (· ≠ delimiter) = word := by
    have kept : ∀ symbol ∈ word, decide (symbol ≠ delimiter) = true := by
      intro symbol member
      exact decide_eq_true fun same => plain (same ▸ member)
    rw [atToken, List.takeWhile_append_of_pos kept]
    rcases behind with ⟨rfl, -⟩ | ⟨later, rfl, -⟩
    · exact List.append_nil word
    · rw [List.takeWhile_cons_of_neg (by simp), List.append_nil]
  have within : word.length ≤ (buffer.string token).length := by
    rw [atToken, List.length_append]
    exact Nat.le_add_right ..
  have atStop : buffer.string (token + word.length) = tail := by
    rw [string_add _ within, atToken, List.drop_left]
  have onward : start ≤ token := Nat.le_add_right ..
  rw [strtok, ← tokenEq, if_neg present, found]
  rcases behind with ⟨rfl, rfl⟩ | ⟨later, rfl, rfl⟩
  · have ended := buffer.string_eq_nil_iff.mp atStop
    refine ⟨buffer, token, token + word.length, if_pos ended, ?_, ?_, le_rfl, onward,
      fun _ _ => rfl⟩
    · rw [atToken, List.append_nil]
    · rw [atStop, List.words_nil]
  · have separated : buffer.byte (token + word.length) ≠ 0 := by
      intro nul
      rw [buffer.string_eq_nil_iff.mpr nul] at atStop
      cases atStop
    refine ⟨buffer.set (token + word.length) 0, token, token + word.length + 1, if_neg separated,
      ?_, ?_, Nat.le_succ _, onward, ?_⟩
    · rw [string_set _ (Nat.le_add_right ..), Nat.add_sub_cancel_left, atToken, List.take_left]
    · have reached : 1 ≤ (buffer.string (token + word.length)).length := by
        rw [atStop]
        simp
      rw [string_set_of_lt _ (Nat.lt_succ_self _), string_add _ reached, atStop]
      rfl
    · intro offset before
      rw [string_set _ (by omega)]
      exact List.take_of_length_le (by omega)

end ByteBuffer
