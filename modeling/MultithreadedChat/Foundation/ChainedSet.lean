import Mathlib.Data.List.FinRange
import Mathlib.Data.List.Induction
import Mathlib.Data.List.Nodup
import Mathlib.Logic.Function.Basic

/-! # Chained hash sets

A set of keys in buckets, the bucket of a key given by a hash function. No bucket
holds a key twice, so that removing the first occurrence removes the key
(`ChainedSet.contains_erase`). Whatever the hash function, the set answers as the set
of its keys does: it contains the keys whose last operation was an insertion
(`ChainedSet.contains_run`).
-/

/-- An operation on a set of keys. -/
inductive SetOp (Key : Type*)
  | insert (key : Key)
  | erase (key : Key)

namespace SetOp

variable {Key : Type*}

def key : SetOp Key → Key
  | .insert key => key
  | .erase key => key

/-- The last operation on the key is an insertion. -/
def LastInserted (ops : List (SetOp Key)) (key : Key) : Prop :=
  ∃ before after, ops = before ++ .insert key :: after ∧ ∀ op ∈ after, op.key ≠ key

theorem not_lastInserted_nil {key : Key} : ¬ LastInserted [] key := by
  rintro ⟨before, after, empty, -⟩
  simp at empty

theorem lastInserted_concat {ops : List (SetOp Key)} {op : SetOp Key} {key : Key} :
    LastInserted (ops ++ [op]) key ↔ op = .insert key ∨ op.key ≠ key ∧ LastInserted ops key := by
  constructor
  · rintro ⟨before, after, shape, untouched⟩
    rcases List.eq_nil_or_concat after with rfl | ⟨front, last, rfl⟩
    · exact .inl (List.append_singleton_inj.mp shape).2
    · rw [List.concat_eq_append, ← List.cons_append, ← List.append_assoc] at shape
      obtain ⟨earlier, rfl⟩ := List.append_singleton_inj.mp shape
      exact .inr ⟨untouched op (by simp), before, front, earlier,
        fun other member => untouched other (by simp [member])⟩
  · rintro (rfl | ⟨other, before, after, rfl, untouched⟩)
    · exact ⟨ops, [], rfl, List.forall_mem_nil _⟩
    · refine ⟨before, after ++ [op], by simp, fun later member => ?_⟩
      rcases List.mem_append.mp member with earlier | last
      · exact untouched later earlier
      · rw [List.mem_singleton.mp last]
        exact other

end SetOp

/-- Buckets of keys without duplicates. -/
structure ChainedSet (Key : Type*) (size : ℕ) where
  buckets : Fin size → List Key
  nodup : ∀ index, (buckets index).Nodup

namespace ChainedSet

variable {Key : Type*} [DecidableEq Key] {size : ℕ} (hash : Key → Fin size)

/-- The set without keys. -/
def empty : ChainedSet Key size := ⟨fun _ => [], fun _ => List.nodup_nil⟩

/-- Search the bucket of the key. -/
def contains (table : ChainedSet Key size) (key : Key) : Bool :=
  (table.buckets (hash key)).contains key

/-- Put the key in front of its bucket, unless it is there. -/
def insert (table : ChainedSet Key size) (key : Key) : ChainedSet Key size :=
  if absent : key ∉ table.buckets (hash key) then
    { buckets := Function.update table.buckets (hash key) (key :: table.buckets (hash key))
      nodup := by
        intro index
        by_cases here : index = hash key
        · subst here
          rw [Function.update_self]
          exact List.nodup_cons.mpr ⟨absent, table.nodup _⟩
        · rw [Function.update_of_ne here]
          exact table.nodup index }
  else table

/-- Unlink the first occurrence of the key in its bucket. -/
def erase (table : ChainedSet Key size) (key : Key) : ChainedSet Key size where
  buckets := Function.update table.buckets (hash key) ((table.buckets (hash key)).erase key)
  nodup := by
    intro index
    by_cases here : index = hash key
    · subst here
      rw [Function.update_self]
      exact (table.nodup _).erase key
    · rw [Function.update_of_ne here]
      exact table.nodup index

variable {hash} {table : ChainedSet Key size} {key other : Key}

theorem contains_iff_mem :
    contains hash table key = true ↔ key ∈ table.buckets (hash key) := List.contains_iff_mem

@[simp] theorem contains_empty : contains hash (empty : ChainedSet Key size) key = false := rfl

theorem insert_present (present : key ∈ table.buckets (hash key)) :
    insert hash table key = table := dif_neg (not_not.mpr present)

theorem buckets_insert (absent : key ∉ table.buckets (hash key)) :
    (insert hash table key).buckets =
      Function.update table.buckets (hash key) (key :: table.buckets (hash key)) := by
  rw [insert, dif_pos absent]

theorem buckets_erase_eq :
    (erase hash table key).buckets =
      Function.update table.buckets (hash key) ((table.buckets (hash key)).erase key) := rfl

theorem buckets_erase_absent (absent : key ∉ table.buckets (hash key)) :
    (erase hash table key).buckets = table.buckets := by
  rw [buckets_erase_eq, List.erase_of_not_mem absent, Function.update_eq_self]

theorem buckets_erase {before after : List Key}
    (shape : table.buckets (hash key) = before ++ key :: after) (first : key ∉ before) :
    (erase hash table key).buckets =
      Function.update table.buckets (hash key) (before ++ after) := by
  rw [buckets_erase_eq, shape, List.erase_append_right _ first, List.erase_cons_head]

/-- An inserted key is added to the keys. -/
theorem contains_insert :
    contains hash (insert hash table key) other = true ↔
      other = key ∨ contains hash table other = true := by
  simp only [contains, List.contains_iff_mem]
  unfold insert
  by_cases absent : key ∉ table.buckets (hash key)
  · rw [dif_pos absent]
    by_cases same : hash other = hash key
    · simp only [same, Function.update_self, List.mem_cons]
    · have different : other ≠ key := fun equal => same (equal ▸ rfl)
      simp only [Function.update_of_ne same, different, false_or]
  · rw [dif_neg absent]
    refine ⟨.inr, ?_⟩
    rintro (rfl | present)
    · exact not_not.mp absent
    · exact present

/-- An erased key is removed from the keys. -/
theorem contains_erase :
    contains hash (erase hash table key) other = true ↔
      other ≠ key ∧ contains hash table other = true := by
  simp only [contains, List.contains_iff_mem, erase]
  by_cases same : hash other = hash key
  · rw [same, Function.update_self]
    exact (table.nodup _).mem_erase_iff
  · have different : other ≠ key := fun equal => same (equal ▸ rfl)
    simp only [Function.update_of_ne same, different, ne_eq, not_false_eq_true, true_and]

theorem contains_erase_self : contains hash (erase hash table key) key = false :=
  Bool.eq_false_iff.mpr fun found => (contains_erase.mp found).1 rfl

theorem contains_erase_of_ne (different : other ≠ key) :
    contains hash (erase hash table key) other = contains hash table other :=
  Bool.eq_iff_iff.mpr (contains_erase.trans (and_iff_right different))

/-! ## Sequences of operations -/

variable (hash) in
/-- What an operation does to the set. -/
def apply (table : ChainedSet Key size) : SetOp Key → ChainedSet Key size
  | .insert key => insert hash table key
  | .erase key => erase hash table key

/-- After any operations on the empty set, it contains the keys whose last operation was an
insertion. -/
theorem contains_run (ops : List (SetOp Key)) :
    contains hash (ops.foldl (apply hash) empty) key = true ↔ SetOp.LastInserted ops key := by
  induction ops using List.reverseRecOn with
  | nil => exact iff_of_false (by simp) SetOp.not_lastInserted_nil
  | append_singleton ops op ih =>
      rw [List.foldl_append, SetOp.lastInserted_concat, ← ih]
      cases op with
      | insert inserted =>
          refine contains_insert.trans ?_
          by_cases same : key = inserted
          · subst same
            exact iff_of_true (.inl rfl) (.inl rfl)
          · simp [same, Ne.symm same, SetOp.key]
      | erase erased =>
          refine contains_erase.trans ?_
          rw [or_iff_right (by simp), SetOp.key, ne_comm]

/-! ## Where the keys are -/

variable (hash) in
/-- Every key is in the bucket of its hash. -/
def Placed (table : ChainedSet Key size) : Prop :=
  ∀ index, ∀ key ∈ table.buckets index, hash key = index

omit [DecidableEq Key] in
theorem placed_empty : Placed hash (empty : ChainedSet Key size) :=
  fun _ _ member => (List.not_mem_nil member).elim

theorem Placed.apply (placed : Placed hash table) (op : SetOp Key) :
    Placed hash (apply hash table op) := by
  intro index key member
  cases op with
  | insert inserted =>
      rw [ChainedSet.apply, ChainedSet.insert] at member
      split at member
      · by_cases here : index = hash inserted
        · subst here
          dsimp only at member
          rw [Function.update_self] at member
          rcases List.mem_cons.mp member with rfl | old
          · rfl
          · exact placed _ key old
        · dsimp only at member
          rw [Function.update_of_ne here] at member
          exact placed index key member
      · exact placed index key member
  | erase erased =>
      rw [ChainedSet.apply, ChainedSet.erase] at member
      dsimp only at member
      by_cases here : index = hash erased
      · subst here
        rw [Function.update_self] at member
        exact placed _ key (List.mem_of_mem_erase member)
      · rw [Function.update_of_ne here] at member
        exact placed index key member

theorem placed_run (ops : List (SetOp Key)) :
    Placed hash (ops.foldl (apply hash) (empty : ChainedSet Key size)) := by
  induction ops using List.reverseRecOn with
  | nil => exact placed_empty
  | append_singleton ops op ih =>
      rw [List.foldl_append]
      exact ih.apply op

omit [DecidableEq Key] in
/-- No key is twice in the set. -/
theorem Placed.nodup_flatMap (placed : Placed hash table) :
    ((List.finRange size).flatMap table.buckets).Nodup := by
  refine List.nodup_flatMap.mpr ⟨fun index _ => table.nodup index, ?_⟩
  refine (List.nodup_finRange size).imp fun {index other} different => ?_
  intro key here there
  exact different ((placed index key here).symm.trans (placed other key there))

end ChainedSet
