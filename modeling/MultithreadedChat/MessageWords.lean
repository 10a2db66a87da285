import Mathlib.Data.List.GetD
import MultithreadedChat.Queue

/-! # The words of a message

What `get_and_tokenise` does to the string in a slot: the first dollar sign goes,
and the first words of the rest are found, in order
(`MultithreadedChat.getAndTokenise_words`).
-/

namespace MultithreadedChat

open ByteBuffer

instance : NeZero queueMsgSize := ⟨by decide⟩

/-- `$`. -/
def dollar : UInt8 := UInt8.ofNat '$'.toNat

/-- The words that `get_and_tokenise` finds in a text. -/
def messageWords (text : List UInt8) : List (List UInt8) :=
  ((text.erase dollar).words blank).take (maxCommandLen - 1)

theorem mem_messageWords {text word : List UInt8} (member : word ∈ messageWords text) :
    word ≠ [] ∧ blank ∉ word :=
  List.mem_words (List.mem_of_mem_take member)

theorem subset_of_mem_messageWords {text word : List UInt8} (member : word ∈ messageWords text) :
    word ⊆ text :=
  List.Subset.trans (List.subset_of_mem_words (List.mem_of_mem_take member)) List.erase_subset

/-- A word of a message is cut to the size of an argument slot, and still a word. -/
theorem ofBytes_messageWord {text : CString queueMsgSize} {word : List UInt8}
    (member : word ∈ messageWords text.bytes) :
    (CString.ofBytes nameSize word).bytes = word.take (nameSize - 1) ∧
      word.take (nameSize - 1) ≠ [] ∧ blank ∉ word.take (nameSize - 1) := by
  have noNul : 0 ∉ word := fun nul => text.noNul (subset_of_mem_messageWords member nul)
  refine ⟨?_, List.take_word (mem_messageWords member) (by decide)⟩
  simp only [CString.ofBytes, CString.takeWhile_noNul noNul]

/-- The words of a message are its keyword and those behind it. -/
theorem messageWords_keyword {keyword : List UInt8} (nonempty : keyword ≠ [])
    (noBlank : blank ∉ keyword) (noDollar : dollar ∉ keyword) (rest : List UInt8) :
    messageWords (keyword ++ CString.ascii "$ " ++ rest) =
      keyword :: (rest.words blank).take (maxCommandLen - 2) := by
  have erased : (keyword ++ CString.ascii "$ " ++ rest).erase dollar =
      keyword ++ blank :: rest := by
    rw [List.append_assoc, List.erase_append_right _ noDollar]
    rfl
  rw [messageWords, erased, List.words_cons nonempty noBlank]
  rfl

theorem messageWords_length_le (text : List UInt8) :
    (messageWords text).length ≤ maxCommandLen - 1 :=
  List.length_take_le ..

section Arguments

variable {text : CString queueMsgSize} {keyword : List UInt8} {words : List (List UInt8)}
  (found : messageWords text.bytes = keyword :: words)
include found

theorem length_arguments_le : words.length ≤ maxCommandLen - 2 := by
  have few := messageWords_length_le text.bytes
  rw [found, List.length_cons] at few
  omega

/-- The words behind the first in their argument slots. -/
theorem map_ofBytes_arguments :
    words.map (fun word => (CString.ofBytes nameSize word).bytes) =
      words.map (List.take (nameSize - 1)) :=
  List.map_congr_left fun _ member =>
    (ofBytes_messageWord (found ▸ List.mem_cons_of_mem keyword member)).1

theorem argument_ne_nil : ∀ arg ∈ words.map (List.take (nameSize - 1)), arg ≠ [] := by
  intro arg member
  obtain ⟨word, given, rfl⟩ := List.mem_map.mp member
  exact (ofBytes_messageWord (found ▸ List.mem_cons_of_mem keyword given)).2.1

end Arguments

/-- The words of a message, joined again, are no longer than the message. -/
theorem length_intercalate_messageWords_le (text : List UInt8) :
    ([blank].intercalate (messageWords text)).length ≤ text.length := by
  have kept := @List.length_intercalate_append_le _ blank (messageWords text)
    (((text.erase dollar).words blank).drop (maxCommandLen - 1))
  rw [messageWords, List.take_append_drop, ← messageWords] at kept
  exact kept.trans ((List.length_intercalate_words_le _).trans List.length_erase_le)

/-- A text has a word if it has a byte other than blanks and its first dollar
sign. -/
theorem messageWords_ne_nil_iff {text : List UInt8} :
    messageWords text ≠ [] ↔ ∃ byte ∈ text.erase dollar, byte ≠ blank := by
  have first : messageWords text = [] ↔ (text.erase dollar).words blank = [] := by
    rw [messageWords, List.take_eq_nil_iff]
    simp
  rw [Ne, first, List.words_eq_nil_iff, not_forall]
  exact exists_congr fun byte => Classical.not_imp

theorem byte_memmove {size : ℕ} (buffer : ByteBuffer size) (target source count i : ℕ) :
    (buffer.memmove target source count).byte i =
      if i < size then
        if target ≤ i ∧ i < target + count then buffer.byte (source + (i - target))
        else buffer.byte i
      else 0 := by
  simp only [byte, memmove, List.getD_eq_getElem?_getD, List.getElem?_ofFn]
  split <;> rfl

/-- Moving the rest of a string one byte down, its terminator included, takes one byte
out of the string. -/
theorem string_memmove {size : ℕ} (buffer : ByteBuffer size) {p : ℕ}
    (within : p < (buffer.string 0).length) :
    (buffer.memmove p (p + 1) (buffer.string p).length).string 0 =
      (buffer.string 0).eraseIdx p := by
  have bytes : ∀ (i : ℕ) (inside : i < (buffer.string 0).length),
      buffer.byte i = (buffer.string 0)[i] := by
    intro i inside
    rw [← buffer.byte_string inside, Nat.zero_add]
  have rest : p + (buffer.string p).length = (buffer.string 0).length := by
    have tail := buffer.string_add (Nat.le_of_lt within)
    rw [Nat.zero_add] at tail
    rw [tail, List.length_drop]
    omega
  have fits := buffer.string_length_le 0
  have shorter := List.length_eraseIdx_of_lt within
  refine string_eq (fun nul => buffer.string_noNul 0 (List.mem_of_mem_eraseIdx nul)) ?_ ?_
  · intro i inside
    rw [Nat.zero_add, byte_memmove, if_pos (by omega), rest]
    by_cases before : i < p
    · rw [if_neg (by omega), bytes i (by omega), List.getElem_eraseIdx_of_lt inside before]
    · have next : p + 1 + (i - p) = i + 1 := by omega
      rw [if_pos (by omega), next, bytes (i + 1) (by omega),
        List.getElem_eraseIdx_of_ge inside (by omega)]
  · have next : p + 1 + ((buffer.string 0).length - 1 - p) = 0 + (buffer.string 0).length := by
      omega
    rw [Nat.zero_add, byte_memmove, rest, shorter, if_pos (by omega), if_pos (by omega), next,
      byte_string_end]

/-- The first dollar sign of a message is removed. -/
theorem removeDollarSign_string (msg : ByteBuffer queueMsgSize) :
    (removeDollarSign msg).string 0 = (msg.string 0).erase dollar := by
  rw [List.erase_eq_eraseIdx]
  unfold removeDollarSign strchr dollar
  cases found : (msg.string 0).idxOf? (UInt8.ofNat '$'.toNat) with
  | none => rfl
  | some p =>
      obtain ⟨within, -, -⟩ := List.idxOf?_eq_some_iff.mp found
      exact string_memmove msg within

/-- What the loop of `get_and_tokenise` does, from a token on. -/
theorem tokeniseLoop_spec (room : ℕ) (msg : ByteBuffer queueMsgSize) (token start : ℕ)
    (inside : token + (msg.string token).length ≤ start) :
    ((tokeniseLoop room msg (some token) start).2.map
        (tokeniseLoop room msg (some token) start).1.string =
      (msg.string token :: (msg.string start).words blank).take room) ∧
    ∀ offset, offset + (msg.string offset).length ≤ start →
      (tokeniseLoop room msg (some token) start).1.string offset = msg.string offset := by
  induction room generalizing msg token start with
  | zero => exact ⟨rfl, fun _ _ => rfl⟩
  | succ room ih =>
      cases behind : (msg.string start).words blank with
      | nil =>
          simp only [tokeniseLoop, msg.strtok_none behind]
          cases room <;> simp [tokeniseLoop]
      | cons word rest =>
          obtain ⟨after, following, next, tokenised, spec⟩ := msg.strtok_some behind
          have found := spec.found
          have kept : after.string token = msg.string token := spec.framed token inside
          obtain ⟨words, framed⟩ := ih after following next (by rw [found]; exact spec.inside)
          have onward : start ≤ next :=
            spec.onward.trans ((Nat.le_add_right ..).trans spec.inside)
          have same : ∀ offset, offset + (msg.string offset).length ≤ start →
              (tokeniseLoop room after (some following) next).1.string offset =
                msg.string offset := by
            intro offset before
            have unchanged := spec.framed offset before
            rw [framed offset (by rw [unchanged]; exact before.trans onward), unchanged]
          simp only [tokeniseLoop, tokenised]
          refine ⟨?_, same⟩
          rw [List.map_cons, words, same token inside, found, spec.remaining]
          rfl

/-- **The words of a slot.** The strings behind the tokens of a message are its
words. -/
theorem getAndTokenise_words (msg : ByteBuffer queueMsgSize) :
    (getAndTokenise msg).2.map (getAndTokenise msg).1.string = messageWords (msg.string 0) := by
  have stripped := removeDollarSign_string msg
  unfold getAndTokenise messageWords
  rw [← stripped]
  cases first : ((removeDollarSign msg).string 0).words blank with
  | nil => simp [strtok_none _ first, tokeniseLoop]
  | cons word rest =>
      obtain ⟨after, token, next, tokenised, spec⟩ := strtok_some _ first
      have words := (tokeniseLoop_spec (maxCommandLen - 1) after token next
        (by rw [spec.found]; exact spec.inside)).1
      rw [spec.found, spec.remaining] at words
      simp only [tokenised]
      exact words

/-- The slot that an append of a message leaves. -/
def storedMsg (msg : List UInt8) : ByteBuffer queueMsgSize :=
  (strncpy queueMsgSize msg).set (queueMsgSize - 1) 0

theorem storedMsg_string (msg : List UInt8) :
    (storedMsg msg).string 0 = (CString.ofBytes queueMsgSize msg).bytes := by
  rw [storedMsg, string_set _ (Nat.zero_le _), string_strncpy, List.take_take]
  rfl

/-- The slot an append leaves depends on the text it stores. -/
theorem storedMsg_congr {msg msg' : List UInt8}
    (same : CString.ofBytes queueMsgSize msg = CString.ofBytes queueMsgSize msg') :
    storedMsg msg = storedMsg msg' := by
  have bytes : ∀ (msg : List UInt8) (i : ℕ),
      (storedMsg msg).byte i = (CString.ofBytes queueMsgSize msg).bytes.getD i 0 := by
    intro msg i
    rw [storedMsg, byte_set, byte_strncpy, CString.ofBytes]
    simp only [List.getD_eq_getElem?_getD, List.getElem?_take]
    by_cases last : i = queueMsgSize - 1
    · rw [if_pos ⟨last, by decide⟩, if_neg (by omega)]
      rfl
    · rw [if_neg fun holds => last holds.1]
      by_cases inside : i < queueMsgSize - 1
      · rw [if_pos inside, if_pos (by omega)]
      · rw [if_neg inside, if_neg (by omega)]
  refine ext_byte _ fun i _ => ?_
  rw [bytes, bytes, same]

end MultithreadedChat
