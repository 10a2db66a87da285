import MultithreadedChat.CommandMemory

/-! # The wire format

The documentation writes a command as its keyword, a dollar sign and its arguments.
`get_and_tokenise` deletes the first dollar sign of the message, wherever it stands, and
nothing where there is none; `command_handler` then looks at the first word. So the
parser accepts the documented form and some others, and takes no other dollar sign away
(`MultithreadedChat.parser_accepts`).
-/

namespace MultithreadedChat

open CString

/-- The keyword of a kind. -/
def CommandKind.keyword : CommandKind → Option (List UInt8)
  | .conn => some (ascii "conn")
  | .connSuccess => some (ascii "connsuccess")
  | .connFailed => some (ascii "connfailed")
  | .say => some (ascii "say")
  | .sayto => some (ascii "sayto")
  | .mute => some (ascii "mute")
  | .unmute => some (ascii "unmute")
  | .rename => some (ascii "rename")
  | .disconn => some (ascii "disconn")
  | .disconnResponse => some (ascii "disconnresponse")
  | .kick => some (ascii "kick")
  | .ping => some (ascii "ping")
  | .retping => some (ascii "retping")
  | .error => some (ascii "error")
  | .unknown => none

theorem CommandKind.code_injective : Function.Injective CommandKind.code := by
  intro kind kind' same
  cases kind <;> cases kind' <;> first | rfl | cases same

/-- One comparison of `command_handler`. -/
theorem CommandKind.keyword_ite {word spelling : List UInt8} {kind rest : CommandKind}
    (spelled : kind.keyword = some spelling)
    (others : rest.keyword = some word ∨ rest = .unknown) :
    (if word = spelling then kind else rest).keyword = some word ∨
      (if word = spelling then kind else rest) = .unknown := by
  by_cases here : word = spelling
  · rw [if_pos here, here]
    exact .inl spelled
  · rw [if_neg here]
    exact others

theorem CommandKind.keyword_ofKeyword (word : List UInt8) :
    (ofKeyword word).keyword = some word ∨ ofKeyword word = .unknown := by
  unfold ofKeyword
  repeat refine keyword_ite rfl ?_
  exact .inr rfl

/-- The comparisons of `command_handler` find the kind whose keyword the word is. -/
theorem CommandKind.ofKeyword_eq_iff {kind : CommandKind} (known : kind ≠ .unknown)
    (word : List UInt8) : ofKeyword word = kind ↔ kind.keyword = some word := by
  constructor
  · rintro rfl
    exact (keyword_ofKeyword word).resolve_right known
  · intro spelled
    cases kind <;> first | exact (known rfl).elim | (cases spelled; rfl)

/-- A keyword is a short word without a dollar sign. -/
theorem CommandKind.keyword_plain {kind : CommandKind} {word : List UInt8}
    (spelled : kind.keyword = some word) :
    word ≠ [] ∧ blank ∉ word ∧ dollar ∉ word ∧ 0 ∉ word ∧ word.length < nameSize := by
  cases kind <;> cases spelled <;> decide

/-- The words of a text once its first dollar sign is deleted. -/
theorem words_erase_dollar {text first : List UInt8} {rest : List (List UInt8)}
    (found : text.words blank = first :: rest) :
    (text.erase dollar).words blank =
      if first = [dollar] then rest
      else first.erase dollar ::
        if dollar ∈ first then rest else (rest.eraseInWords dollar).filter (· ≠ []) := by
  have proper : ∀ word ∈ first :: rest, word ≠ [] := fun word member =>
    (List.mem_words (found ▸ member)).1
  have later : rest.filter (· ≠ []) = rest := by
    rw [List.filter_eq_self]
    intro word member
    simpa using proper word (List.mem_cons_of_mem _ member)
  rw [List.words_erase (by decide), found, List.eraseInWords]
  by_cases inside : dollar ∈ first
  · rw [if_pos inside, if_pos inside]
    by_cases alone : first = [dollar]
    · rw [if_pos alone, alone, List.erase_cons_head, List.filter_cons_of_neg (by simp), later]
    · have kept : first.erase dollar ≠ [] := by
        intro nothing
        rcases List.erase_eq_nil_iff.mp nothing with empty | single
        · exact proper first List.mem_cons_self empty
        · exact alone single
      rw [if_neg alone, List.filter_cons_of_pos (by simpa using kept), later]
  · have other : first ≠ [dollar] := by
      rintro rfl
      exact inside List.mem_cons_self
    rw [if_neg inside, if_neg inside, if_neg other, List.erase_of_not_mem inside,
      List.filter_cons_of_pos (by simpa using proper first List.mem_cons_self)]

/-- The documented form of a message of this kind: the first word is the keyword with one
dollar sign behind it. -/
def DocumentedForm (kind : CommandKind) (text : List UInt8) : Prop :=
  ∃ keyword ∈ kind.keyword, (text.words blank).head? = some (keyword ++ [dollar])

/-- The form the code takes: the first word is the keyword, with or without one dollar sign
anywhere in it, or it is a dollar sign and the keyword is the second word. -/
def AcceptedForm (kind : CommandKind) (text : List UInt8) : Prop :=
  ∃ keyword ∈ kind.keyword, ∃ first rest, text.words blank = first :: rest ∧
    (first.erase dollar = keyword ∨ first = [dollar] ∧ rest.head? = some keyword)

theorem DocumentedForm.accepted {kind : CommandKind} {text : List UInt8}
    (documented : DocumentedForm kind text) : AcceptedForm kind text := by
  obtain ⟨keyword, spelled, starts⟩ := documented
  obtain ⟨rest, found⟩ := List.head?_eq_some_iff.mp starts
  refine ⟨keyword, spelled, keyword ++ [dollar], rest, found, .inl ?_⟩
  rw [List.erase_append_right _ (CommandKind.keyword_plain spelled).2.2.1, List.erase_cons_head,
    List.append_nil]

/-- A message has the accepted form if its first word is the keyword once the dollar sign is
deleted. -/
theorem acceptedForm_iff {kind : CommandKind} {text : List UInt8} :
    AcceptedForm kind text ↔
      ∃ keyword ∈ kind.keyword, ((text.erase dollar).words blank).head? = some keyword := by
  refine exists_congr fun keyword => and_congr_right fun spelled => ?_
  have nonempty := (CommandKind.keyword_plain spelled).1
  cases found : text.words blank with
  | nil =>
      have wordless : (text.erase dollar).words blank = [] := by
        rw [List.words_erase (by decide), found]
        rfl
      simp [wordless]
  | cons first rest =>
      rw [words_erase_dollar found]
      by_cases alone : first = [dollar]
      · subst alone
        simp [nonempty.symm]
      · simp [alone]

/-- The words fit: the tokens are as many as the tokeniser takes, and none is cut. -/
structure Uncut (words : List (List UInt8)) : Prop where
  count : words.length ≤ maxCommandLen - 1
  lengths : ∀ word ∈ words, word.length < nameSize

/-- All arguments of a command. -/
def CommandMemory.arguments (command : CommandMemory) : List (List UInt8) := .ofFn command.arg

/-- The parser takes the message as the documentation writes it, and nothing else, and
leaves the other dollar signs in the arguments. -/
structure AcceptsExactly (text : CString queueMsgSize) (command : CommandMemory) : Prop where
  kind : ∀ kind ≠ .unknown, command.kind = kind.code ↔ DocumentedForm kind text.bytes
  dollars : ∀ kind, DocumentedForm kind text.bytes →
    command.arguments.flatten.count dollar = text.bytes.count dollar - 1

/-- The parser takes the message in any of the accepted forms, and only its first dollar
sign away. -/
structure Accepts (text : CString queueMsgSize) (command : CommandMemory) : Prop where
  kind : ∀ kind ≠ .unknown, command.kind = kind.code ↔ AcceptedForm kind text.bytes
  documented : ∀ kind, DocumentedForm kind text.bytes → command.kind = kind.code
  arguments : Uncut ((text.bytes.erase dollar).words blank) →
    command.arguments = ((text.bytes.erase dollar).words blank).tail ++
      .replicate (maxCmdSize - ((text.bytes.erase dollar).words blank).tail.length) []
  dollars : ∀ kind, AcceptedForm kind text.bytes →
    Uncut ((text.bytes.erase dollar).words blank) →
      command.arguments.flatten.count dollar = text.bytes.count dollar - 1

/-- The kind of a message is that of its first word. -/
theorem kind_parseSlot_iff {text : CString queueMsgSize} (worded : messageWords text.bytes ≠ [])
    (memory : CommandMemory) {kind : CommandKind} (known : kind ≠ .unknown) :
    (parseSlot memory (storedMsg text.bytes)).kind = kind.code ↔
      AcceptedForm kind text.bytes := by
  obtain ⟨keyword, words, found⟩ := List.exists_cons_of_ne_nil worded
  have first : ((text.bytes.erase dollar).words blank).head? = some keyword := by
    have taken := congrArg List.head? found
    rw [messageWords, List.head?_take, if_neg (by decide)] at taken
    exact taken
  rw [parseSlot_eq, storedMsg_string, CString.ofBytes_bytes, found, CommandMemory.commandHandler,
    CommandKind.code_injective.eq_iff, CommandKind.ofKeyword_eq_iff known, acceptedForm_iff, first]
  simp

/-- Where the words fit, the arguments are the words behind the first. -/
theorem arguments_parseSlot {text : CString queueMsgSize} (worded : messageWords text.bytes ≠ [])
    (fits : Uncut ((text.bytes.erase dollar).words blank)) (memory : CommandMemory) :
    (parseSlot memory (storedMsg text.bytes)).arguments =
      ((text.bytes.erase dollar).words blank).tail ++
        .replicate (maxCmdSize - ((text.bytes.erase dollar).words blank).tail.length) [] := by
  have all : messageWords text.bytes = (text.bytes.erase dollar).words blank :=
    List.take_of_length_le fits.count
  rw [← all] at fits ⊢
  obtain ⟨keyword, words, found⟩ := List.exists_cons_of_ne_nil worded
  have few : words.length ≤ maxCmdSize := by
    have bound := length_arguments_le found
    dsimp only [maxCommandLen, maxCmdSize] at bound ⊢
    omega
  have whole : words.map (List.take (nameSize - 1)) = words := by
    conv_rhs => rw [← List.map_id words]
    refine List.map_congr_left fun word member => ?_
    have short := fits.lengths word (found ▸ List.mem_cons_of_mem _ member)
    exact List.take_of_length_le (by omega)
  have slots : (memory.commandHandler (keyword :: words)).arg =
      fun slot : Fin maxCmdSize => CommandMemory.expected words slot :=
    funext (CommandMemory.arg_commandHandler memory keyword words)
  rw [parseSlot_eq, storedMsg_string, CString.ofBytes_bytes, found, List.tail_cons,
    CommandMemory.arguments, slots, CommandMemory.ofFn_expected few, map_ofBytes_arguments found,
    whole]

/-- **The accepted messages.** A message with a word besides its first dollar sign is taken as
the kind whose keyword its first words spell, and no other dollar sign is taken away. -/
theorem parser_accepts (text : CString queueMsgSize) (worded : messageWords text.bytes ≠ [])
    (memory : CommandMemory) :
    Accepts text (parseSlot memory (storedMsg text.bytes)) where
  kind _ known := kind_parseSlot_iff worded memory known
  documented kind documented := by
    obtain ⟨keyword, spelled, -⟩ := id documented
    have known : kind ≠ .unknown := by
      rintro rfl
      cases spelled
    exact (kind_parseSlot_iff worded memory known).mpr documented.accepted
  arguments fits := arguments_parseSlot worded fits memory
  dollars kind accepted fits := by
    obtain ⟨keyword, spelled, first⟩ := acceptedForm_iff.mp accepted
    obtain ⟨rest, found⟩ := List.head?_eq_some_iff.mp first
    have plain := (CommandKind.keyword_plain spelled).2.2.1
    have counted := congrArg (List.count dollar) 
      (@List.flatten_words _ _ blank (text.bytes.erase dollar))
    rw [arguments_parseSlot worded fits, found, List.tail_cons, List.flatten_append,
      List.flatten_replicate_nil, List.append_nil]
    rw [found, List.flatten_cons, List.count_append, List.count_eq_zero_of_not_mem plain,
      List.count_filter (by decide), List.count_erase_self, Nat.zero_add] at counted
    exact counted

/-- A command before its first message. -/
def CommandMemory.zeroed : CommandMemory := ⟨0, ByteBuffer.strncpy _ []⟩

/-- A price in the text of a message keeps its dollar sign if the keyword has one in it. -/
theorem parser_accepts_price :
    (parseSlot .zeroed (storedMsg (ascii "sa$y only $5"))).kind = CommandKind.say.code ∧
      (parseSlot .zeroed (storedMsg (ascii "sa$y only $5"))).arguments =
        ascii "only" :: ascii "$5" :: .replicate 48 [] := by
  have accepts := parser_accepts ⟨ascii "sa$y only $5", by decide, by decide⟩ (by decide) .zeroed
  exact ⟨(accepts.kind .say (by decide)).mpr
    ⟨ascii "say", rfl, ascii "sa$y", _, rfl, .inl rfl⟩, accepts.arguments ⟨by decide, by decide⟩⟩

/-- A message without a dollar sign is taken as a `say`. -/
theorem bare_keyword_accepted :
    ¬ AcceptsExactly ⟨ascii "say hello", by decide, by decide⟩
      (parseSlot .zeroed (storedMsg (ascii "say hello"))) := by
  intro accepts
  have taken : (parseSlot .zeroed (storedMsg (ascii "say hello"))).kind = CommandKind.say.code :=
    (@kind_parseSlot_iff ⟨ascii "say hello", by decide, by decide⟩ (by decide) .zeroed .say
      (by decide)).mpr ⟨ascii "say", rfl, ascii "say", _, rfl, .inl rfl⟩
  obtain ⟨keyword, spelled, starts⟩ := (accepts.kind .say (by decide)).mp taken
  cases spelled
  exact absurd starts (by decide)

end MultithreadedChat
