import MultithreadedChat.Foundation.ChainedSet
import MultithreadedChat.Foundation.CString

/-! # The table of muted names

The hash table in which a client keeps the names it has muted, and the name that is
read off a displayed line.
-/

namespace MultithreadedChat

abbrev tableSize : ℕ := 100

/-- A byte as the `char` it is read as, converted to `unsigned long`. -/
def signedChar (byte : UInt8) : UInt64 := byte.toInt8.toInt64.toUInt64

/-- `hash`. -/
def hash (key : List UInt8) : Fin tableSize :=
  let hashVal : UInt64 :=
    key.foldl (fun hashVal c => ((hashVal <<< 5) + hashVal) + signedChar c) 5381
  ⟨hashVal.toNat % tableSize, Nat.mod_lt _ (by decide)⟩

/-- `hash_node_t *mute_table[TABLE_SIZE]`. -/
abbrev MuteTable := ChainedSet (List UInt8) tableSize

/-- `insert`. -/
def MuteTable.insert (table : MuteTable) (key : List UInt8) : MuteTable :=
  ChainedSet.insert hash table key

/-- `contains`. -/
def MuteTable.contains (table : MuteTable) (key : List UInt8) : Bool :=
  ChainedSet.contains hash table key

/-- `remove_key`. -/
def MuteTable.removeKey (table : MuteTable) (key : List UInt8) : MuteTable :=
  ChainedSet.erase hash table key

/-- `:`. -/
def colon : UInt8 := UInt8.ofNat ':'.toNat

/-- `extract_username`: what stands before the first colon, if it is not empty and
shorter than `maxLen`. -/
def extractUsername (message : List UInt8) (maxLen : ℕ) : List UInt8 :=
  match message.idxOf? colon with
  | some len => if len > 0 ∧ len < maxLen then message.take len else []
  | none => []

/-- A line that starts with a plain name and a colon. -/
theorem extractUsername_colon {name : List UInt8} (plain : colon ∉ name) (rest : List UInt8)
    (maxLen : ℕ) : extractUsername (name ++ colon :: rest) maxLen =
      if name.length < maxLen then name else [] := by
  have position : (name ++ colon :: rest).idxOf? colon = some name.length := by
    rw [List.idxOf?_eq_some_iff]
    refine ⟨by simp, by simp, fun i before => ?_⟩
    rw [List.getElem_append_left before]
    exact fun same => plain (same ▸ List.getElem_mem before)
  rw [extractUsername, position]
  dsimp only
  by_cases empty : name.length = 0
  · rw [List.length_eq_zero_iff] at empty
    subst empty
    simp
  · by_cases short : name.length < maxLen
    · rw [if_pos ⟨Nat.pos_of_ne_zero empty, short⟩, if_pos short, List.take_left]
    · rw [if_neg fun both => short both.2, if_neg short]

theorem extractUsername_none {message : List UInt8} (plain : colon ∉ message) (maxLen : ℕ) :
    extractUsername message maxLen = [] := by
  rw [extractUsername, List.idxOf?_eq_none_iff.mpr plain]

/-- The name read off a line contains no colon. -/
theorem colon_notMem_extractUsername (message : List UInt8) (maxLen : ℕ) :
    colon ∉ extractUsername message maxLen := by
  by_cases present : colon ∈ message
  · obtain ⟨name, rest, rfl, plain⟩ := List.eq_append_cons_of_mem present
    rw [extractUsername_colon plain]
    split
    · exact plain
    · exact List.not_mem_nil
  · rw [extractUsername_none present]
    exact List.not_mem_nil

end MultithreadedChat
