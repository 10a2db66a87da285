import MultithreadedChat.Server.JoinedText

/-! # Whole words in a joined text

`join_args` appends the blank before a word before it knows whether the word fits. What it
builds stays within its limit and has the length it counts, and no word is cut; but a word
that does not fit leaves its blank behind (`MultithreadedChat.joinsWholeWords_iff`).
-/

namespace MultithreadedChat

open CString

/-- The words that `join_args` is to join: the arguments from the start index up to the first
empty one. -/
def argumentWords (args : Fin maxCmdSize → Name) (startIndex : ℕ) : List (List UInt8) :=
  (((List.ofFn args).drop startIndex).map CString.bytes).takeWhile (· ≠ [])

/-- The strings that `join_args` builds stay within the limit and have the length it counts,
and the last one is made of whole words with single blanks between them. -/
structure JoinsWholeWords (args : Fin maxCmdSize → Name) (startIndex maxLen : ℕ) : Prop where
  counted : ∀ state ∈ joinArgsStates maxLen ((List.ofFn args).drop startIndex) [] 0 true,
    state.1.length = state.2
  fits : ∀ state ∈ joinArgsStates maxLen ((List.ofFn args).drop startIndex) [] 0 true,
    state.1.length + 1 ≤ maxLen
  whole : ∃ count, joinArgs args startIndex maxLen =
    [blank].intercalate ((argumentWords args startIndex).take count)

/-- `join_args` joins the words up to one that does not fit, and such a one leaves its
blank. -/
theorem joinArgs_split (args : Fin maxCmdSize → Name) (startIndex maxLen : ℕ) :
    ∃ kept rest, argumentWords args startIndex = kept ++ rest ∧
      joinArgs args startIndex maxLen = [blank].intercalate kept ++
        List.replicate (if kept = [] ∨ rest = [] then 0 else 1) blank ∧
      (kept ≠ [] → ([blank].intercalate kept).length < maxLen - 1) ∧
      ∀ next ∈ rest.head?, maxLen - 1 ≤ ([blank].intercalate (kept ++ [next])).length :=
  joinArgsLoop_split maxLen ((List.ofFn args).drop startIndex) [] fun some => (some rfl).elim

/-- Joined words with a blank behind them are not joined words. -/
theorem intercalate_blank_ne {kept rest : List (List UInt8)} (nonempty : kept ≠ [])
    (proper : ∀ word ∈ rest, word ≠ []) (count : ℕ) :
    [blank].intercalate kept ++ [blank] ≠ [blank].intercalate ((kept ++ rest).take count) := by
  intro same
  have lengths := congrArg List.length same
  rw [List.length_append, List.length_singleton] at lengths
  by_cases short : count ≤ kept.length
  · have shorter := @List.length_intercalate_append_le _ blank (kept.take count) (kept.drop count)
    rw [List.take_append_drop] at shorter
    rw [List.take_append_of_le_length short] at lengths
    omega
  · have cut : (kept ++ rest).take count = kept ++ rest.take (count - kept.length) := by
      rw [List.take_append, List.take_of_length_le (by omega)]
    rw [cut] at lengths
    cases taken : rest.take (count - kept.length) with
    | nil =>
        rw [taken, List.append_nil] at lengths
        omega
    | cons word later =>
        have nonblank : 0 < word.length := List.length_pos_iff.mpr
          (proper word (List.mem_of_mem_take (taken ▸ List.mem_cons_self)))
        have longer := @List.length_intercalate_append_le _ blank [word] later
        rw [List.intercalate_singleton, List.singleton_append] at longer
        rw [taken, List.intercalate_append _ nonempty (List.cons_ne_nil _ _), List.length_append,
          List.length_append, List.length_singleton] at lengths
        omega

/-- Joined words are whole words unless a blank is behind some of them and before another. -/
theorem exists_take_iff {kept rest : List (List UInt8)} (proper : ∀ word ∈ rest, word ≠ []) :
    (∃ count, [blank].intercalate kept ++
        List.replicate (if kept = [] ∨ rest = [] then 0 else 1) blank =
          [blank].intercalate ((kept ++ rest).take count)) ↔ kept = [] ∨ rest = [] := by
  constructor
  · rintro ⟨count, same⟩
    by_contra separated
    rw [if_neg separated] at same
    exact intercalate_blank_ne (fun nothing => separated (.inl nothing)) proper count same
  · intro clean
    refine ⟨kept.length, ?_⟩
    rw [if_pos clean, List.take_left, List.replicate_zero, List.append_nil]

/-- **Whole words.** `join_args` keeps to whole words exactly if all of them fit with the
blanks between them, or already the first does not fit. -/
theorem joinsWholeWords_iff (args : Fin maxCmdSize → Name) (startIndex : ℕ) {maxLen : ℕ}
    (positive : 1 ≤ maxLen) :
    JoinsWholeWords args startIndex maxLen ↔
      ∀ first ∈ (argumentWords args startIndex).head?,
        ([blank].intercalate (argumentWords args startIndex)).length + 2 ≤ maxLen ∨
          maxLen ≤ first.length + 1 := by
  have states := @joinArgsStates_spec maxLen ((List.ofFn args).drop startIndex) [] positive true
  have proper : ∀ word ∈ argumentWords args startIndex, word ≠ [] := fun word member => by
    simpa using List.mem_takeWhile_imp member
  obtain ⟨kept, rest, shape, joined, fits, stuck⟩ := joinArgs_split args startIndex maxLen
  rw [shape] at proper
  have clean : JoinsWholeWords args startIndex maxLen ↔ kept = [] ∨ rest = [] := by
    rw [← exists_take_iff fun word member => proper word (List.mem_append_right _ member),
      ← joined, ← shape]
    exact ⟨fun joins => joins.whole, fun whole => ⟨fun state member => (states state member).1,
      fun state member => (states state member).1 ▸ (states state member).2, whole⟩⟩
  rw [clean, shape]
  cases kept with
  | nil =>
      refine iff_of_true (.inl rfl) fun first member => .inr ?_
      have full := stuck first member
      rw [List.nil_append, List.intercalate_singleton] at full
      omega
  | cons word kept =>
      have bound := fits (List.cons_ne_nil _ _)
      simp only [List.cons_append, List.head?_cons, Option.mem_some_iff, forall_eq']
      cases rest with
      | nil =>
          refine iff_of_true (.inr rfl) (.inl ?_)
          rw [List.append_nil]
          omega
      | cons next rest =>
          refine iff_of_false (by simp) ?_
          have full := stuck next rfl
          have onward := @List.length_intercalate_append_le _ blank (word :: kept ++ [next]) rest
          have first := @List.length_intercalate_append_le _ blank [word] kept
          have regroup : word :: kept ++ [next] ++ rest = word :: (kept ++ next :: rest) := by simp
          rw [List.intercalate_singleton, List.singleton_append] at first
          rw [regroup] at onward
          omega

/-- What `join_args` builds is the start of the joined words. -/
theorem joinArgs_prefix (args : Fin maxCmdSize → Name) (startIndex maxLen : ℕ) :
    joinArgs args startIndex maxLen <+: [blank].intercalate (argumentWords args startIndex) := by
  obtain ⟨kept, rest, shape, joined, -⟩ := joinArgs_split args startIndex maxLen
  rw [joined, shape]
  by_cases clean : kept = [] ∨ rest = []
  · rw [if_pos clean, List.replicate_zero, List.append_nil]
    rcases clean with rfl | rfl
    · exact List.nil_prefix
    · rw [List.append_nil]
  · rw [not_or] at clean
    rw [if_neg (not_or.mpr clean), List.intercalate_append _ clean.1 clean.2]
    exact List.prefix_append ..

/-- Words that fit are joined whole. -/
theorem joinArgs_eq_of_fits {args : Fin maxCmdSize → Name} {startIndex maxLen : ℕ}
    (fits : ([blank].intercalate (argumentWords args startIndex)).length + 2 ≤ maxLen) :
    joinArgs args startIndex maxLen = [blank].intercalate (argumentWords args startIndex) := by
  refine joinArgsLoop_eq maxLen ((List.ofFn args).drop startIndex) [] ?_
  change ([blank].intercalate (argumentWords args startIndex)).length < maxLen - 1
  omega

/-- The arguments of a `say` of some words. -/
def saidArgs (words : List (List UInt8)) : Fin maxCmdSize → Name :=
  (commandHandler ⟨.unknown, fun _ => .empty nameSize⟩ (ascii "say" :: words)).args

/-- Two words that fit together. -/
theorem joinsWholeWords_two :
    JoinsWholeWords (saidArgs [ascii "hello", ascii "world"]) 0 maxMessage := by
  refine (joinsWholeWords_iff _ _ (by decide)).mpr fun first _ => .inl ?_
  decide

/-- Thirteen words of nineteen letters. -/
def longWords : List (List UInt8) := .replicate 13 (ascii "nineteen_characters")

set_option maxRecDepth 8000 in
/-- Of thirteen words of nineteen letters the last does not fit, and its blank is left behind
the others. -/
theorem joined_with_blank :
    joinArgs (saidArgs longWords) 0 maxMessage =
        [blank].intercalate (longWords.take 12) ++ [blank] ∧
      ¬ JoinsWholeWords (saidArgs longWords) 0 maxMessage := by
  have joined : joinArgs (saidArgs longWords) 0 maxMessage =
      [blank].intercalate (longWords.take 12) ++ [blank] := by decide
  have words : argumentWords (saidArgs longWords) 0 =
      longWords.take 12 ++ longWords.drop 12 := by decide
  refine ⟨joined, fun joins => ?_⟩
  obtain ⟨count, same⟩ := joins.whole
  rw [joined, words] at same
  exact intercalate_blank_ne (by decide) (by decide) count same

end MultithreadedChat
