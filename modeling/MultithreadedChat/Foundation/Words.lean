import Mathlib.Algebra.GroupWithZero.Nat
import Mathlib.Algebra.Order.BigOperators.Group.List
import Mathlib.Algebra.Order.Group.Nat
import Mathlib.Data.List.DropRight

/-! # Words of a text

The words of a text are its maximal runs without the delimiter, in order
(`List.words`). Joining words with single delimiters gives a text with exactly these
words (`List.words_intercalate`), so a text of words joined in this way is
determined by its words. Deleting a symbol from a text deletes it from the first word
that has it (`List.words_erase`).
-/

namespace List

variable {α : Type*} [DecidableEq α] (delimiter : α)

/-- The maximal nonempty runs of symbols other than the delimiter. -/
def words (text : List α) : List (List α) := (text.splitOn delimiter).filter (· ≠ [])

variable {delimiter}

@[simp] theorem words_nil : words delimiter ([] : List α) = [] := rfl

/-- A delimiter separates the words before it from those behind it. -/
theorem words_append_cons (front rest : List α) :
    words delimiter (front ++ delimiter :: rest) =
      words delimiter front ++ words delimiter rest := by
  rw [words, splitOn_append_cons_self, filter_append]
  rfl

@[simp] theorem words_cons_self (rest : List α) :
    words delimiter (delimiter :: rest) = words delimiter rest :=
  words_append_cons [] rest

/-- A run without the delimiter is one word. -/
theorem words_singleton {word : List α} (nonempty : word ≠ []) (plain : delimiter ∉ word) :
    words delimiter word = [word] := by
  rw [words, splitOn_eq_singleton plain, filter_cons_of_pos (by simpa using nonempty), filter_nil]

/-- The first word ends at the first delimiter behind it. -/
theorem words_cons {word : List α} (nonempty : word ≠ []) (plain : delimiter ∉ word)
    (rest : List α) :
    words delimiter (word ++ delimiter :: rest) = word :: words delimiter rest := by
  rw [words_append_cons, words_singleton nonempty plain, singleton_append]

/-- Delimiters before the first word do not matter. -/
theorem words_dropWhile (text : List α) :
    words delimiter (text.dropWhile (· = delimiter)) = words delimiter text := by
  induction text with
  | nil => rfl
  | cons symbol rest ih =>
      by_cases separator : symbol = delimiter
      · subst separator
        rw [dropWhile_cons_of_pos (by simp), words_cons_self]
        exact ih
      · rw [dropWhile_cons_of_neg (by simpa using separator)]

/-- Delimiters behind the last word do not matter. -/
theorem words_append_replicate (text : List α) (count : ℕ) :
    words delimiter (text ++ replicate count delimiter) = words delimiter text := by
  induction count with
  | zero => simp
  | succ count ih =>
      rw [replicate_succ', ← append_assoc, words_append_cons, ih]
      simp

/-- A text either has no delimiter or consists of two texts around one. -/
@[elab_as_elim]
theorem delimited_induction (delimiter : α) {motive : List α → Prop} (text : List α)
    (plain : ∀ run, delimiter ∉ run → motive run)
    (separated : ∀ front rest, motive front → motive rest → motive (front ++ delimiter :: rest)) :
    motive text := by
  induction size : text.length using Nat.strongRecOn generalizing text with
  | ind total ih =>
      by_cases present : delimiter ∈ text
      · obtain ⟨front, rest, rfl, -⟩ := eq_append_cons_of_mem present
        have shorter : front.length < total ∧ rest.length < total := by
          simp only [length_append, length_cons] at size
          omega
        exact separated front rest (ih _ shorter.1 front rfl) (ih _ shorter.2 rest rfl)
      · exact plain text present

theorem words_plain {run : List α} (plain : delimiter ∉ run) :
    words delimiter run = if run = [] then [] else [run] := by
  by_cases nothing : run = []
  · rw [if_pos nothing, nothing, words_nil]
  · rw [if_neg nothing, words_singleton nothing plain]

/-- No word is empty, and none contains the delimiter. -/
theorem mem_words {text word : List α} (member : word ∈ words delimiter text) :
    word ≠ [] ∧ delimiter ∉ word := by
  induction text using delimited_induction delimiter with
  | plain run plain =>
      rw [words_plain plain] at member
      split at member
      · cases member
      · rename_i nonempty
        rw [mem_singleton.mp member]
        exact ⟨nonempty, plain⟩
  | separated front rest before behind =>
      rw [words_append_cons, mem_append] at member
      exact member.elim before behind

omit [DecidableEq α] in
/-- The start of a word is a word. -/
theorem take_word {word : List α} (proper : word ≠ [] ∧ delimiter ∉ word) {count : ℕ}
    (positive : 0 < count) : word.take count ≠ [] ∧ delimiter ∉ word.take count := by
  refine ⟨?_, fun member => proper.2 (mem_of_mem_take member)⟩
  intro nothing
  rcases take_eq_nil_iff.mp nothing with zero | empty
  · exact positive.ne' zero
  · exact proper.1 empty

/-- The symbols of a word are symbols of the text. -/
theorem subset_of_mem_words {text word : List α} (member : word ∈ words delimiter text) :
    word ⊆ text := by
  induction text using delimited_induction delimiter with
  | plain run plain =>
      rw [words_plain plain] at member
      split at member
      · cases member
      · rw [mem_singleton.mp member]
        exact Subset.refl _
  | separated front rest before behind =>
      rw [words_append_cons, mem_append] at member
      rcases member with first | later
      · exact Subset.trans (before first) (subset_append_left ..)
      · have kept : rest ⊆ front ++ delimiter :: rest :=
          Subset.trans (subset_cons_self ..) (subset_append_right ..)
        exact Subset.trans (behind later) kept

/-- The first word is where the delimiters in front end, and the others are behind the
delimiter after it. -/
theorem exists_split_word {text word : List α} {rest : List (List α)}
    (first : words delimiter text = word :: rest) :
    ∃ tail, text.dropWhile (· = delimiter) = word ++ tail ∧
      (tail = [] ∧ rest = [] ∨
        ∃ later, tail = delimiter :: later ∧ words delimiter later = rest) := by
  set body := text.dropWhile (· = delimiter) with bodyEq
  have sameWords : words delimiter body = word :: rest := (words_dropWhile text).trans first
  have starts : ∃ symbol behind, body = symbol :: behind ∧ symbol ≠ delimiter := by
    have dropped := head?_dropWhile_not (fun symbol => decide (symbol = delimiter)) text
    rw [← bodyEq] at dropped
    cases here : body with
    | nil =>
        rw [here] at sameWords
        cases sameWords
    | cons symbol behind =>
        rw [here] at dropped
        exact ⟨symbol, behind, rfl, by simpa using dropped⟩
  obtain ⟨symbol, behind, startsWith, notDelimiter⟩ := starts
  have nonempty : body.takeWhile (· ≠ delimiter) ≠ [] := by
    rw [startsWith, takeWhile_cons_of_pos (by simpa using notDelimiter)]
    exact cons_ne_nil _ _
  have plain : delimiter ∉ body.takeWhile (· ≠ delimiter) := by
    intro member
    simpa using mem_takeWhile_imp member
  have parts : body = body.takeWhile (· ≠ delimiter) ++ body.dropWhile (· ≠ delimiter) :=
    takeWhile_append_dropWhile.symm
  have stops := head?_dropWhile_not (fun symbol => decide (symbol ≠ delimiter)) body
  cases tail : body.dropWhile (· ≠ delimiter) with
  | nil =>
      rw [tail, append_nil] at parts
      rw [← parts] at nonempty plain
      rw [words_singleton nonempty plain] at sameWords
      obtain ⟨rfl, rfl⟩ := cons.inj sameWords
      exact ⟨[], (append_nil _).symm, .inl ⟨rfl, rfl⟩⟩
  | cons other later =>
      rw [tail] at stops parts
      obtain rfl : other = delimiter := by simpa using stops
      rw [parts, words_cons nonempty plain] at sameWords
      obtain ⟨rfl, rfl⟩ := cons.inj sameWords
      exact ⟨_, parts, .inr ⟨later, rfl, rfl⟩⟩

/-- The words of a text have its symbols other than the delimiter, in order. -/
theorem flatten_words (text : List α) :
    (words delimiter text).flatten = text.filter (· ≠ delimiter) := by
  induction text using delimited_induction delimiter with
  | plain run plain =>
      have kept : run.filter (· ≠ delimiter) = run := by
        rw [filter_eq_self]
        intro symbol member
        simpa using ne_of_mem_of_not_mem member plain
      rw [words_plain plain, kept]
      by_cases nothing : run = [] <;> simp [nothing]
  | separated front rest before behind =>
      rw [words_append_cons, flatten_append, before, behind, filter_append,
        filter_cons_of_neg (by simp)]

/-- Deletes a symbol where it occurs first in a list of words. -/
def eraseInWords (symbol : α) : List (List α) → List (List α)
  | [] => []
  | word :: rest =>
    if symbol ∈ word then word.erase symbol :: rest else word :: eraseInWords symbol rest

theorem eraseInWords_append {symbol : α} (front rest : List (List α)) :
    eraseInWords symbol (front ++ rest) =
      if ∃ word ∈ front, symbol ∈ word then eraseInWords symbol front ++ rest
      else front ++ eraseInWords symbol rest := by
  induction front with
  | nil => simp
  | cons word front ih =>
      by_cases here : symbol ∈ word
      · simp [eraseInWords, here]
      · rw [cons_append, eraseInWords, if_neg here, ih, eraseInWords, if_neg here]
        simp only [mem_cons, exists_eq_or_imp, here, false_or]
        split <;> rfl

/-- A symbol other than the delimiter is in a text if it is in one of its words. -/
theorem mem_words_iff {symbol : α} (other : symbol ≠ delimiter) {text : List α} :
    (∃ word ∈ words delimiter text, symbol ∈ word) ↔ symbol ∈ text := by
  constructor
  · rintro ⟨word, member, inside⟩
    exact subset_of_mem_words member inside
  · induction text using delimited_induction delimiter with
    | plain run plain =>
        intro inside
        exact ⟨run, by simp [words_plain plain, ne_nil_of_mem inside], inside⟩
    | separated front rest before behind =>
        intro inside
        rw [words_append_cons]
        rcases mem_append.mp inside with first | later
        · obtain ⟨word, member, here⟩ := before first
          exact ⟨word, mem_append_left _ member, here⟩
        · obtain ⟨word, member, here⟩ := behind ((mem_cons.mp later).resolve_left other)
          exact ⟨word, mem_append_right _ member, here⟩

theorem filter_words (text : List α) :
    (words delimiter text).filter (· ≠ []) = words delimiter text := by
  rw [filter_eq_self]
  intro word member
  simpa using (mem_words member).1

/-- Deleting a symbol other than the delimiter from a text deletes it from the words; a
word of nothing else is gone. -/
theorem words_erase {symbol : α} (other : symbol ≠ delimiter) (text : List α) :
    words delimiter (text.erase symbol) =
      (eraseInWords symbol (words delimiter text)).filter (· ≠ []) := by
  induction text using delimited_induction delimiter with
  | plain run plain =>
      have erased : delimiter ∉ run.erase symbol := fun member => plain (mem_of_mem_erase member)
      by_cases inside : symbol ∈ run
      · rw [words_plain erased, words_plain plain, if_neg (ne_nil_of_mem inside), eraseInWords,
          if_pos inside, filter_singleton]
        by_cases alone : run.erase symbol = [] <;> simp [alone]
      · rw [erase_of_not_mem inside, words_plain plain]
        by_cases nothing : run = [] <;> simp [nothing, eraseInWords, inside]
  | separated front rest before behind =>
      rw [words_append_cons, eraseInWords_append]
      by_cases inside : symbol ∈ front
      · rw [if_pos ((mem_words_iff other).mpr inside), erase_append_left _ inside,
          words_append_cons, before, filter_append, filter_words]
      · rw [if_neg fun among => inside ((mem_words_iff other).mp among),
          erase_append_right _ inside, erase_cons_tail (by simpa using other.symm),
          words_append_cons, behind, filter_append, filter_words]

omit [DecidableEq α] in
/-- Joining words in two parts. -/
theorem intercalate_append (separator : List α) {front rest : List (List α)} (nonempty : front ≠ [])
    (more : rest ≠ []) :
    separator.intercalate (front ++ rest) =
      separator.intercalate front ++ separator ++ separator.intercalate rest := by
  induction front with
  | nil => exact (nonempty rfl).elim
  | cons word front ih =>
      rw [cons_append, intercalate_cons_of_ne_nil (append_ne_nil_of_right_ne_nil _ more)]
      by_cases last : front = []
      · subst last
        simp
      · rw [ih last, intercalate_cons_of_ne_nil last]
        simp only [append_assoc]

omit [DecidableEq α] in
/-- A symbol of joined words is the separator or in a word. -/
theorem mem_intercalate {symbol : α} {pieces : List (List α)}
    (member : symbol ∈ [delimiter].intercalate pieces) :
    symbol = delimiter ∨ ∃ piece ∈ pieces, symbol ∈ piece := by
  induction pieces with
  | nil => cases member
  | cons piece rest ih =>
      by_cases last : rest = []
      · subst last
        rw [intercalate_singleton] at member
        exact .inr ⟨piece, mem_cons_self, member⟩
      · rw [intercalate_cons_of_ne_nil last, mem_append, mem_append, mem_singleton] at member
        rcases member with (here | separator) | later
        · exact .inr ⟨piece, mem_cons_self, here⟩
        · exact .inl separator
        · rcases ih later with separator | ⟨other, among, inside⟩
          · exact .inl separator
          · exact .inr ⟨other, mem_cons_of_mem _ among, inside⟩

omit [DecidableEq α] in
theorem notMem_intercalate {symbol : α} {pieces : List (List α)} (other : symbol ≠ delimiter)
    (absent : ∀ piece ∈ pieces, symbol ∉ piece) : symbol ∉ [delimiter].intercalate pieces := by
  intro member
  rcases mem_intercalate member with separator | ⟨piece, among, inside⟩
  · exact other separator
  · exact absent piece among inside

/-- The symbols before some copies of another one. -/
theorem takeWhile_ne_append_replicate {value : α} {front : List α}
    (different : ∀ symbol ∈ front, symbol ≠ value) (count : ℕ) :
    (front ++ replicate count value).takeWhile (· ≠ value) = front := by
  rw [takeWhile_append_of_pos (by simpa using different), takeWhile_replicate, if_neg (by simp),
    append_nil]

omit [DecidableEq α] in
/-- The length of joined words. -/
theorem length_intercalate (pieces : List (List α)) :
    ([delimiter].intercalate pieces).length =
      (pieces.map length).sum + (pieces.length - 1) := by
  induction pieces with
  | nil => rfl
  | cons piece rest ih =>
      by_cases last : rest = []
      · subst last
        simp
      · have remaining : 0 < rest.length := length_pos_iff.mpr last
        rw [intercalate_cons_of_ne_nil last, length_append, length_append, ih, map_cons, sum_cons,
          length_singleton, length_cons]
        omega

omit [DecidableEq α] in
/-- Further words make the joined text no shorter. -/
theorem length_intercalate_append_le (front rest : List (List α)) :
    ([delimiter].intercalate front).length ≤ ([delimiter].intercalate (front ++ rest)).length := by
  rw [length_intercalate, length_intercalate, map_append, sum_append, length_append]
  omega

omit [DecidableEq α] in
/-- The length of the joined words that are kept, each cut. -/
theorem length_intercalate_cut_le (pieces : List (List α)) (count size : ℕ) :
    ([delimiter].intercalate ((pieces.take count).map (take size))).length ≤
      (pieces.map fun piece => min size piece.length).sum + (pieces.length - 1) := by
  have lengths : ((pieces.take count).map (take size)).map length =
      (pieces.take count).map fun piece => min size piece.length := by
    rw [map_map]
    exact map_congr_left fun piece _ => length_take ..
  have parts := congrArg (fun pieces : List (List α) =>
    (pieces.map fun piece => min size piece.length).sum) (take_append_drop count pieces)
  simp only [map_append, sum_append] at parts
  rw [length_intercalate, lengths, length_map, length_take]
  omega

omit [DecidableEq α] in
/-- Joining the words that are kept, each cut, gives nothing longer. -/
theorem length_intercalate_cut_le_whole (pieces : List (List α)) (count size : ℕ) :
    ([delimiter].intercalate ((pieces.take count).map (take size))).length ≤
      ([delimiter].intercalate pieces).length := by
  have cut := @length_intercalate_cut_le _ delimiter pieces count size
  have shorter : (pieces.map fun piece => min size piece.length).sum ≤ (pieces.map length).sum :=
    sum_le_sum fun piece _ => Nat.min_le_right ..
  rw [length_intercalate pieces]
  omega

/-- The words of a text, joined again, are no longer than the text. -/
theorem length_intercalate_words_le (text : List α) :
    ([delimiter].intercalate (words delimiter text)).length ≤ text.length := by
  induction text using delimited_induction delimiter with
  | plain run plain =>
      rw [words_plain plain]
      split
      · exact Nat.zero_le _
      · rw [intercalate_singleton]
  | separated front rest before behind =>
      rw [words_append_cons, length_append, length_cons]
      by_cases none : words delimiter front = []
      · rw [none, nil_append]
        omega
      · by_cases nomore : words delimiter rest = []
        · rw [nomore, append_nil]
          omega
        · rw [intercalate_append _ none nomore, length_append, length_append, length_singleton]
          omega

/-- A text has a word if it has a symbol other than the delimiter. -/
theorem words_eq_nil_iff {text : List α} :
    words delimiter text = [] ↔ ∀ symbol ∈ text, symbol = delimiter := by
  induction text with
  | nil => simp
  | cons symbol rest ih =>
      by_cases separator : symbol = delimiter
      · subst separator
        rw [words_cons_self, ih]
        simp
      · refine iff_of_false ?_ fun all => separator (all symbol mem_cons_self)
        by_cases later : delimiter ∈ symbol :: rest
        · obtain ⟨front, behind, same, plain⟩ := eq_append_cons_of_mem later
          have nonempty : front ≠ [] := by
            rintro rfl
            exact separator (cons.inj same).1
          rw [same, words_cons nonempty plain]
          simp
        · rw [words_singleton (by simp) later]
          simp

/-- Words joined with single delimiters are the words of the joined text. -/
theorem words_intercalate {pieces : List (List α)}
    (proper : ∀ piece ∈ pieces, piece ≠ [] ∧ delimiter ∉ piece) :
    words delimiter ([delimiter].intercalate pieces) = pieces := by
  by_cases nothing : pieces = []
  · subst nothing
    rfl
  · rw [words, splitOn_intercalate delimiter (fun piece member => (proper piece member).2) nothing]
    apply filter_eq_self.mpr
    intro piece member
    simpa using (proper piece member).1

/-- Delimiters at the end are dropped. -/
theorem rdropWhile_append_replicate (text : List α) (count : ℕ) :
    (text ++ replicate count delimiter).rdropWhile (· = delimiter) =
      text.rdropWhile (· = delimiter) := by
  induction count with
  | zero => rw [replicate_zero, append_nil]
  | succ count ih => rw [replicate_succ', ← append_assoc, rdropWhile_concat_pos _ _ _ (by simp), ih]

/-- Joined words do not end in a delimiter. -/
theorem rdropWhile_intercalate {pieces : List (List α)}
    (proper : ∀ piece ∈ pieces, piece ≠ [] ∧ delimiter ∉ piece) :
    ([delimiter].intercalate pieces).rdropWhile (· = delimiter) =
      [delimiter].intercalate pieces := by
  cases pieces using List.reverseRecOn with
  | nil => rfl
  | append_singleton front last =>
      obtain ⟨nonempty, plain⟩ := proper last (by simp)
      obtain ⟨start, symbol, rfl⟩ := (eq_nil_or_concat' last).resolve_left nonempty
      have different : symbol ≠ delimiter := fun same => plain (same ▸ by simp)
      by_cases alone : front = []
      · subst alone
        rw [nil_append, intercalate_singleton,
          rdropWhile_concat_neg _ _ _ (by simpa using different)]
      · rw [intercalate_append _ alone (by simp), intercalate_singleton, ← append_assoc,
          rdropWhile_concat_neg _ _ _ (by simpa using different)]

end List
