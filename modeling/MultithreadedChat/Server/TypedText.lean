import MultithreadedChat.QueueFifo
import MultithreadedChat.Server.JoinedText

/-! # Messages as they are typed

A text behind `say$` or `sayto$` goes through a slot of the queue, is split into words,
each copied into an argument slot, and joined again. The server takes it as typed exactly
if no word and not the number of words is too large for the slots, and the whole message
fits the queue (`MultithreadedChat.takesAsTyped_iff`); the limit on the length of the
text implies none of this.
-/

namespace MultithreadedChat

open CString

/-- To whom a text is typed: to everybody, or to one name. -/
inductive Addressee
  | everybody
  | one (name : List UInt8)

namespace Addressee

def kind : Addressee → CommandKind
  | .everybody => .say
  | .one _ => .sayto

def keyword : Addressee → List UInt8
  | .everybody => ascii "say"
  | .one _ => ascii "sayto"

/-- The arguments before the text. -/
def front : Addressee → List (List UInt8)
  | .everybody => []
  | .one name => [name]

/-- What is typed before the text: `say$ `, or `sayto$ ` and the name with a blank. -/
def typed : Addressee → List UInt8
  | .everybody => ascii "say$ "
  | .one name => ascii "sayto$ " ++ name ++ ascii " "

end Addressee

/-- A word that can be typed. -/
structure TypedWord (word : List UInt8) : Prop where
  nonempty : word ≠ []
  noBlank : blank ∉ word
  noNul : 0 ∉ word

instance (word : List UInt8) : Decidable (TypedWord word) :=
  decidable_of_iff (word ≠ [] ∧ blank ∉ word ∧ 0 ∉ word)
    ⟨fun ⟨nonempty, noBlank, noNul⟩ => ⟨nonempty, noBlank, noNul⟩,
      fun typed => ⟨typed.nonempty, typed.noBlank, typed.noNul⟩⟩

/-- Whenever the message is appended in a run of the queue and popped when its turn comes,
the command has the kind of the keyword, and `join_args` gives the text as typed. -/
def TakesAsTyped (addressee : Addressee) (text : List UInt8) : Prop :=
  ∀ (trace : List (Queue × QueueOp)) (queue : Queue), queueCalls.Execution trace queue →
    ∀ (turn : ℕ) (fromAddr : Option SockAddrIn) (popped : Popped) (prior : Command),
      (appendedMessages trace)[turn]? = some (.stored (addressee.typed ++ text) fromAddr) →
      (poppedMessages trace)[turn]? = some popped →
      (commandHandler prior popped.dequeued).kind = addressee.kind ∧
        joinArgs (commandHandler prior popped.dequeued).args addressee.front.length maxMessage =
          text

/-- The words and their number fit the argument slots behind the arguments in front, and
the message fits a slot of the queue unless there is no text. -/
structure FitsSlots (addressee : Addressee) (words : List (List UInt8)) : Prop where
  short : ∀ word ∈ words, word.length ≤ nameSize - 1
  few : addressee.front.length + words.length ≤ maxCommandLen - 2
  stored : words = [] ∨
    (addressee.typed ++ [blank].intercalate words).length ≤ queueMsgSize - 1

/-! ## What the argument slots hold -/

/-- A text from so many argument slots: a word from each, cut to the size of the slot. -/
def slottedText (slots : ℕ) (text : List UInt8) : List UInt8 :=
  [blank].intercalate (((text.words blank).take slots).map (List.take (nameSize - 1)))

theorem length_slottedText_le (slots : ℕ) (text : List UInt8) :
    (slottedText slots text).length ≤ text.length :=
  (List.length_intercalate_cut_le_whole ..).trans (List.length_intercalate_words_le text)

/-- The slots hold a text of words joined with blanks if they hold each of its words. -/
theorem slottedText_eq_iff {words : List (List UInt8)} (typed : ∀ word ∈ words, TypedWord word)
    (slots : ℕ) :
    slottedText slots ([blank].intercalate words) = [blank].intercalate words ↔
      (∀ word ∈ words, word.length ≤ nameSize - 1) ∧ words.length ≤ slots := by
  have proper : ∀ word ∈ words, word ≠ [] ∧ blank ∉ word :=
    fun word member => ⟨(typed word member).nonempty, (typed word member).noBlank⟩
  have properCut : ∀ word ∈ (words.take slots).map (List.take (nameSize - 1)),
      word ≠ [] ∧ blank ∉ word := by
    intro arg member
    obtain ⟨word, among, rfl⟩ := List.mem_map.mp member
    exact List.take_word (proper word (List.mem_of_mem_take among)) (by decide)
  rw [slottedText, List.words_intercalate proper]
  constructor
  · intro same
    have alike := congrArg (List.words blank) same
    rw [List.words_intercalate proper, List.words_intercalate properCut] at alike
    refine ⟨?_, ?_⟩
    · intro word member
      rw [← alike] at member
      obtain ⟨whole, -, rfl⟩ := List.mem_map.mp member
      exact List.length_take_le ..
    · rw [← alike, List.length_map]
      exact List.length_take_le ..
  · rintro ⟨short, few⟩
    rw [List.take_of_length_le few]
    congr 1
    refine (List.map_congr_left fun word member => ?_).trans (List.map_id _)
    exact List.take_of_length_le (short word member)

/-! ## What the slot of the queue holds -/

/-- A typed message is stored up to the size of a slot. -/
theorem ofBytes_typed {message : List UInt8} (noNul : 0 ∉ message) :
    (CString.ofBytes queueMsgSize message).bytes = message.take (queueMsgSize - 1) := by
  simp only [CString.ofBytes, takeWhile_noNul noNul]

namespace Addressee

variable {addressee : Addressee} (proper : ∀ name ∈ addressee.front, TypedWord name)
include proper

theorem typed_noNul : 0 ∉ addressee.typed := by
  cases addressee with
  | everybody => decide
  | one name =>
      have plain := (proper name List.mem_cons_self).noNul
      exact List.not_mem_append (List.not_mem_append (by decide) plain) (by decide)

/-- The words of a stored message: the keyword, the arguments in front, and the words of
as much of the text as is stored, as many as are tokenised. -/
theorem messageWords_typed (text : List UInt8) :
    ∃ words, messageWords ((addressee.typed ++ text).take (queueMsgSize - 1)) =
        addressee.keyword :: words ∧
      words.drop addressee.front.length =
        ((text.take (queueMsgSize - 1 - addressee.typed.length)).words blank).take
          (maxCommandLen - 2 - addressee.front.length) := by
  cases addressee with
  | everybody =>
      have stored : (typed .everybody ++ text).take (queueMsgSize - 1) =
          ascii "say" ++ ascii "$ " ++
            text.take (queueMsgSize - 1 - (typed .everybody).length) := by
        rw [List.take_append]
        rfl
      rw [stored]
      exact ⟨_, messageWords_keyword (by decide) (by decide) (by decide) _, rfl⟩
  | one name =>
      obtain ⟨nonempty, noBlank, -⟩ := proper name List.mem_cons_self
      have size : (typed (.one name)).length = name.length + 8 := by
        have keyword : (ascii "sayto$ ").length = 7 := rfl
        have separator : (ascii " ").length = 1 := rfl
        rw [typed, List.length_append, List.length_append, keyword, separator]
        omega
      have parts : typed (.one name) ++ text = ascii "sayto$ " ++ (name ++ blank :: text) := by
        rw [typed, List.append_assoc, List.append_assoc]
        rfl
      have stored : (typed (.one name) ++ text).take (queueMsgSize - 1) =
          ascii "sayto" ++ ascii "$ " ++ (name ++ blank :: text).take 504 := by
        rw [parts, List.take_append]
        rfl
      rw [stored, messageWords_keyword (by decide) (by decide) (by decide)]
      refine ⟨_, rfl, ?_⟩
      have front : (front (.one name)).length = 1 := rfl
      rw [size, front]
      by_cases within : name.length < 504
      · have behind : 504 - name.length = queueMsgSize - 1 - (name.length + 8) + 1 := by
          dsimp only [queueMsgSize]
          omega
        rw [List.take_append, List.take_of_length_le (Nat.le_of_lt within), behind,
          List.take_succ_cons, List.words_cons nonempty noBlank]
        rfl
      · have full : queueMsgSize - 1 - (name.length + 8) = 0 := by
          dsimp only [queueMsgSize]
          omega
        obtain ⟨started, plain⟩ := List.take_word ⟨nonempty, noBlank⟩ (show 0 < 504 by decide)
        rw [full, List.take_append_of_le_length (by omega), List.words_singleton started plain]
        rfl

/-- The command of a typed message: its arguments behind those in front give as much of
the text as is stored and the argument slots hold. -/
theorem commandHandler_typed {words : List (List UInt8)} (typed : ∀ word ∈ words, TypedWord word)
    (limited : ([blank].intercalate words).length ≤ maxMessage - 2)
    (fromAddr : Option SockAddrIn) (prior : Command) {command : Command}
    (parsed : command = commandHandler prior (messageWords
      (Message.stored (addressee.typed ++ [blank].intercalate words) fromAddr).text.bytes)) :
    command.kind = addressee.kind ∧
      joinArgs command.args addressee.front.length maxMessage =
        slottedText (maxCommandLen - 2 - addressee.front.length)
          (([blank].intercalate words).take (queueMsgSize - 1 - addressee.typed.length)) := by
  have noNul : 0 ∉ addressee.typed ++ [blank].intercalate words :=
    List.not_mem_append (typed_noNul proper)
      (List.notMem_intercalate (by decide) fun word member => (typed word member).noNul)
  obtain ⟨rest, found, behind⟩ := messageWords_typed proper ([blank].intercalate words)
  rw [← ofBytes_typed noNul] at found
  have slotted : [blank].intercalate ((rest.drop addressee.front.length).map
      (List.take (nameSize - 1))) = slottedText (maxCommandLen - 2 - addressee.front.length)
        (([blank].intercalate words).take (queueMsgSize - 1 - addressee.typed.length)) := by
    rw [behind]
    rfl
  subst parsed
  constructor
  · rw [Message.stored, found]
    cases addressee <;> rfl
  · rw [← slotted]
    apply joinArgs_commandHandler found
    rw [slotted]
    refine (length_slottedText_le ..).trans_lt ?_
    rw [List.length_take]
    dsimp only [maxMessage] at limited ⊢
    omega

end Addressee

section Typed

variable {addressee : Addressee} (proper : ∀ name ∈ addressee.front, TypedWord name)
  {words : List (List UInt8)} (typed : ∀ word ∈ words, TypedWord word)
  (limited : ([blank].intercalate words).length ≤ maxMessage - 2)

include proper typed limited in
/-- A text is taken as typed if what is stored and held of it is the text. -/
theorem takesAsTyped_iff_slotted :
    TakesAsTyped addressee ([blank].intercalate words) ↔
      slottedText (maxCommandLen - 2 - addressee.front.length)
          (([blank].intercalate words).take (queueMsgSize - 1 - addressee.typed.length)) =
        [blank].intercalate words := by
  constructor
  · intro takes
    let message := addressee.typed ++ [blank].intercalate words
    let cleared : QueueNode := ⟨.strncpy queueMsgSize [], ⟨0, 0, 0, 0⟩, false⟩
    have start : queueCalls.Execution [] (queueInit fun _ => cleared) := .start ⟨_, rfl⟩
    have appended := start.step (.append message none (by decide))
    have waiting : (0 : Fin queueMax) ≠ nextSlot 0 := by decide
    have popped := appended.step (.pop waiting)
    let prior : Command := ⟨.unknown, fun _ => .empty nameSize⟩
    have taken := takes _ _ popped 0 none _ prior rfl rfl
    have yields := @yields_of_execution _ _ popped 0 (.stored message none) _ rfl rfl
    have command := Addressee.commandHandler_typed proper typed limited none prior
      (congrArg (commandHandler prior) yields.words)
    exact command.2.symm.trans taken.2
  · intro same trace queue execution turn fromAddr popped prior appended returned
    have yields := yields_of_execution execution appended returned
    have command := Addressee.commandHandler_typed proper typed limited fromAddr prior
      (congrArg (commandHandler prior) yields.words)
    exact ⟨command.1, command.2.trans same⟩

omit typed in
/-- At most one argument is in front of the text. -/
theorem length_front_le (addressee : Addressee) : addressee.front.length ≤ 1 := by
  cases addressee <;> simp [Addressee.front]

include typed in
theorem fitsSlots_iff_slotted :
    FitsSlots addressee words ↔
      slottedText (maxCommandLen - 2 - addressee.front.length)
          (([blank].intercalate words).take (queueMsgSize - 1 - addressee.typed.length)) =
        [blank].intercalate words := by
  constructor
  · intro fits
    have whole : ([blank].intercalate words).take (queueMsgSize - 1 - addressee.typed.length) =
        [blank].intercalate words := by
      rcases fits.stored with rfl | stored
      · exact List.take_nil
      · rw [List.length_append] at stored
        exact List.take_of_length_le (by omega)
    have few := fits.few
    rw [whole]
    exact (slottedText_eq_iff typed _).mpr ⟨fits.short, by omega⟩
  · intro same
    have kept := length_slottedText_le (maxCommandLen - 2 - addressee.front.length)
      (([blank].intercalate words).take (queueMsgSize - 1 - addressee.typed.length))
    rw [same, List.length_take] at kept
    rw [List.take_of_length_le (by omega)] at same
    obtain ⟨short, few⟩ := (slottedText_eq_iff typed _).mp same
    have front := length_front_le addressee
    refine ⟨short, by dsimp only [maxCommandLen] at few ⊢; omega, ?_⟩
    by_cases nothing : words = []
    · exact .inl nothing
    · right
      have something : 0 < ([blank].intercalate words).length := by
        apply List.length_pos_iff.mpr
        intro empty
        have again := @List.words_intercalate _ _ blank words fun word member =>
          ⟨(typed word member).nonempty, (typed word member).noBlank⟩
        rw [empty] at again
        exact nothing again.symm
      rw [List.length_append]
      omega

include proper typed limited in
/-- **When a message is taken as typed.** A text of words separated by single blanks, at
most `MAX_MESSAGE - 2` bytes long, is taken as typed exactly if its words fit the argument
slots and the message fits the queue. -/
theorem takesAsTyped_iff :
    TakesAsTyped addressee ([blank].intercalate words) ↔ FitsSlots addressee words := by
  rw [takesAsTyped_iff_slotted proper typed limited, fitsSlots_iff_slotted typed]

end Typed

/-- The words of a sentence. -/
def sampleWords (sentence : String) : List (List UInt8) := (ascii sentence).words blank

/-- A private message with two words. -/
theorem takesAsTyped_two :
    TakesAsTyped (.one (ascii "bob")) ([blank].intercalate (sampleWords "hello world")) :=
  (takesAsTyped_iff (by decide) (by decide) (by decide)).mpr
    ⟨by decide, by decide, .inr (by decide)⟩

set_option maxRecDepth 2000 in
/-- A word of `NAME_SIZE` bytes loses its last byte, and a text of 49 words its last word. -/
theorem typed_text_lost :
    (∃ words, (∀ word ∈ words, TypedWord word) ∧ words.length = 1 ∧
      ([blank].intercalate words).length ≤ maxMessage - 2 ∧
      ¬ TakesAsTyped .everybody ([blank].intercalate words)) ∧
    ∃ words, (∀ word ∈ words, TypedWord word ∧ word.length = 1) ∧
      ([blank].intercalate words).length ≤ maxMessage - 2 ∧
      ¬ TakesAsTyped .everybody ([blank].intercalate words) := by
  have long : ∀ word ∈ [List.replicate nameSize (UInt8.ofNat 97)], TypedWord word := by decide
  have many : ∀ word ∈ List.replicate 49 [UInt8.ofNat 97], TypedWord word ∧ word.length = 1 := by
    decide
  have proper : ∀ name ∈ Addressee.everybody.front, TypedWord name := by decide
  refine ⟨⟨_, long, rfl, by decide, ?_⟩, _, many, by decide, ?_⟩
  · rw [takesAsTyped_iff_slotted proper long (by decide), ← fitsSlots_iff_slotted long]
    intro fits
    exact absurd (fits.short _ List.mem_cons_self) (by decide)
  · rw [takesAsTyped_iff_slotted proper (fun word member => (many word member).1) (by decide),
      ← fitsSlots_iff_slotted fun word member => (many word member).1]
    intro fits
    exact absurd fits.few (by decide)

end MultithreadedChat
