import MultithreadedChat.Client.MuteTable
import MultithreadedChat.Foundation.ChainTable

/-! # The mute table in memory

The table of muted names as it lies in memory: a pointer for every bucket, and the nodes of
all chains in one heap. The routines never follow a wrong pointer and do to the chains what
`MultithreadedChat.MuteTable` does to its buckets; so the table is the set of the keys that
were inserted last (`MultithreadedChat.mute_table_is_set`).
-/

namespace MultithreadedChat

open LinkedList

/-- The nodes with their keys, and `mute_table`. -/
structure MuteChains where
  heap : Heap (List UInt8)
  table : Fin tableSize → Ptr

namespace MuteChains

def empty : MuteChains := ⟨.empty, fun _ => none⟩

/-- `insert`. -/
def insert (chains : MuteChains) (key : List UInt8) : Except Fault MuteChains := do
  let idx := hash key
  match ← chains.heap.seek (fun other => other == key) chains.heap.fresh (chains.table idx) with
  | some _ => return chains
  | none =>
    let newNode : Cell (List UInt8) := ⟨key, chains.table idx⟩
    let id := chains.heap.fresh
    return ⟨chains.heap.allocate newNode, Function.update chains.table idx (some id)⟩

/-- `contains`. -/
def contains (chains : MuteChains) (key : List UInt8) : Except Fault Bool := do
  let idx := hash key
  match ← chains.heap.seek (fun other => other == key) chains.heap.fresh (chains.table idx) with
  | some _ => return true
  | none => return false

/-- `remove_key`. -/
def removeKey (chains : MuteChains) (key : List UInt8) : Except Fault MuteChains := do
  let idx := hash key
  let (prev, n) ← chains.heap.seekLink (fun other => other == key) chains.heap.fresh none
    (chains.table idx)
  match n with
  | none => return chains
  | some id =>
    let node ← chains.heap.load n
    match prev with
    | some _ =>
      let heap ← chains.heap.update (fun last => { last with next := node.next }) prev
      return ⟨heap.release id, chains.table⟩
    | none => return ⟨chains.heap.release id, Function.update chains.table idx node.next⟩

/-- A call of `insert` or `remove_key`. -/
def apply (chains : MuteChains) : SetOp (List UInt8) → Except Fault MuteChains
  | .insert key => chains.insert key
  | .erase key => chains.removeKey key

/-- The keys in a bucket, in the order of its chain. -/
def bucket (chains : MuteChains) (index : Fin tableSize) : Except Fault (List (List UInt8)) := do
  let entries ← chains.heap.collect chains.heap.fresh (chains.table index)
  return entries.map Prod.snd

/-- The chains of the buckets carry the keys of the table. -/
def Refines (chains : MuteChains) (table : MuteTable) : Prop :=
  ∃ entries, Chains chains.heap chains.table entries ∧
    ∀ index, table.buckets index = (entries index).map Prod.snd

theorem refines_empty : Refines empty ChainedSet.empty := ⟨_, .empty, fun _ => rfl⟩

variable {chains : MuteChains} {table : MuteTable}

/-- A key is in its bucket if the search along the chain finds it. -/
theorem mem_bucket_iff {entries : Fin tableSize → List (ℕ × List UInt8)} {key : List UInt8}
    (keys : ∀ index, table.buckets index = (entries index).map Prod.snd) :
    key ∈ table.buckets (hash key) ↔
      ((entries (hash key)).find? fun entry => entry.2 == key).isSome = true := by
  rw [keys, List.find?_isSome]
  simp

namespace Refines

variable (refines : chains.Refines table)
include refines

theorem bucket_eq (index : Fin tableSize) : chains.bucket index = .ok (table.buckets index) := by
  obtain ⟨entries, linked, keys⟩ := refines
  rw [bucket, (linked.chain index).collect_eq (linked.length_le_fresh index), keys]
  rfl

theorem contains_eq (key : List UInt8) : chains.contains key = .ok (table.contains key) := by
  obtain ⟨entries, linked, keys⟩ := refines
  have found : table.contains key =
      ((entries (hash key)).find? fun entry => entry.2 == key).isSome := by
    rw [Bool.eq_iff_iff, MuteTable.contains, ChainedSet.contains_iff_mem, mem_bucket_iff keys]
  rw [contains, (linked.chain (hash key)).seek_eq _ (linked.length_le_fresh _), found]
  cases (entries (hash key)).find? fun entry => entry.2 == key <;> rfl

/-- An insertion of a key puts it in front of its chain, unless the search finds it. -/
theorem insert_spec (key : List UInt8) :
    ∃ after, chains.insert key = .ok after ∧ after.Refines (table.insert key) := by
  obtain ⟨entries, linked, keys⟩ := refines
  have sought :=
    (linked.chain (hash key)).seek_eq (fun other => other == key) (linked.length_le_fresh _)
  cases found : (entries (hash key)).find? fun entry => entry.2 == key with
  | some entry =>
      have present : key ∈ table.buckets (hash key) :=
        (mem_bucket_iff keys).mpr (by rw [found, Option.isSome_some])
      have same : table.insert key = table := ChainedSet.insert_present present
      refine ⟨chains, ?_, ?_⟩
      · simp only [insert, sought, found, Option.map_some, ok_bind, pure_eq_ok]
      · rw [same]
        exact ⟨entries, linked, keys⟩
  | none =>
      have absent : key ∉ table.buckets (hash key) := by
        rw [mem_bucket_iff keys, found]
        exact Bool.false_ne_true
      have added : (table.insert key).buckets =
          Function.update table.buckets (hash key) (key :: table.buckets (hash key)) :=
        ChainedSet.buckets_insert absent
      refine ⟨⟨chains.heap.allocate ⟨key, chains.table (hash key)⟩,
        Function.update chains.table (hash key) (some chains.heap.fresh)⟩, ?_, _,
        linked.push (hash key) key, fun index => ?_⟩
      · simp only [insert, sought, found, Option.map_none, ok_bind, pure_eq_ok]
      · rw [added]
        by_cases here : index = hash key
        · subst here
          simp only [Function.update_self, List.map_cons, keys]
        · simp only [Function.update_of_ne here, keys]

end Refines

section RemoveKey

variable {entries : Fin tableSize → List (ℕ × List UInt8)}
  (linked : Chains chains.heap chains.table entries)
  (keys : ∀ index, table.buckets index = (entries index).map Prod.snd)
  {key : List UInt8} {id : ℕ} {after : List (ℕ × List UInt8)}
include linked keys

omit linked in
/-- The buckets without a key that is found in its chain. -/
theorem buckets_removeKey {before : List (ℕ × List UInt8)}
    (shape : entries (hash key) = before ++ (id, key) :: after)
    (missed : ∀ entry ∈ before, (entry.2 == key) = false) (index : Fin tableSize) :
    (table.removeKey key).buckets index =
      (Function.update entries (hash key) (before ++ after) index).map Prod.snd := by
  have bucket : table.buckets (hash key) = before.map Prod.snd ++ key :: after.map Prod.snd := by
    rw [keys, shape, List.map_append, List.map_cons]
  have first : key ∉ before.map Prod.snd := by
    intro member
    obtain ⟨entry, there, rfl⟩ := List.mem_map.mp member
    exact absurd (missed entry there) (by simp)
  rw [MuteTable.removeKey, ChainedSet.buckets_erase bucket first]
  by_cases here : index = hash key
  · subst here
    rw [Function.update_self, Function.update_self, List.map_append]
  · rw [Function.update_of_ne here, Function.update_of_ne here, keys]

/-- A key that is first in its chain is taken out. -/
private theorem removeKey_first (shape : entries (hash key) = (id, key) :: after) :
    ∃ chains', chains.removeKey key = .ok chains' ∧ chains'.Refines (table.removeKey key) := by
  have chain := linked.chain (hash key)
  have bound := linked.length_le_fresh (hash key)
  rw [shape] at chain bound
  obtain ⟨-, next, at_cell, -⟩ := chain.cons_inv
  have sought := chain.seekLink_head (fun other => other == key) (beq_self_eq_true key) bound none
  have loaded : chains.heap.load (some id) = .ok ⟨key, next⟩ := by
    simp only [Heap.load, at_cell]
  have without := @buckets_removeKey table entries keys key id after [] shape
    (List.forall_mem_nil _)
  refine ⟨⟨chains.heap.release id, Function.update chains.table (hash key) next⟩, ?_, _,
    linked.unlink_first at_cell shape, without⟩
  simp only [removeKey, sought, loaded, ok_bind, pure_eq_ok]

/-- A key behind another one in its chain is taken out. -/
private theorem removeKey_inner {front : List (ℕ × List UInt8)} {previous : ℕ}
    {kept : List UInt8}
    (shape : entries (hash key) = (front ++ [(previous, kept)]) ++ (id, key) :: after)
    (missed : ∀ entry ∈ front ++ [(previous, kept)], (entry.2 == key) = false) :
    ∃ chains', chains.removeKey key = .ok chains' ∧ chains'.Refines (table.removeKey key) := by
  have chain := linked.chain (hash key)
  have bound := linked.length_le_fresh (hash key)
  rw [shape] at chain bound
  obtain ⟨-, next, at_cell, -⟩ := chain.entry_inv
  have sought := chain.seekLink_eq (fun other => other == key) missed (beq_self_eq_true key)
    bound none
  have regrouped : front ++ [(previous, kept)] ++ (id, key) :: after =
      front ++ (previous, kept) :: (id, key) :: after := by simp
  rw [regrouped] at chain
  obtain ⟨-, link, at_previous, -⟩ := chain.entry_inv
  have loaded : chains.heap.load (some id) = .ok ⟨key, next⟩ := by
    simp only [Heap.load, at_cell]
  have redirected : chains.heap.update (fun last => { last with next := next }) (some previous) =
      .ok (chains.heap.store previous ⟨kept, next⟩) := by
    simp only [Heap.update, at_previous]
  have unlinked := linked.unlink at_cell (shape.trans regrouped)
  have rejoined : front ++ (previous, kept) :: after = front ++ [(previous, kept)] ++ after := by
    simp
  rw [rejoined] at unlinked
  refine ⟨⟨(chains.heap.store previous ⟨kept, next⟩).release id, chains.table⟩, ?_, _, unlinked,
    buckets_removeKey keys shape missed⟩
  simp only [removeKey, sought, List.getLast?_append, List.getLast?_singleton, Option.some_or,
    Option.map_some, loaded, redirected, ok_bind, pure_eq_ok]

end RemoveKey

namespace Refines

variable (refines : chains.Refines table)
include refines

/-- A removal takes the node of the key out of its chain, if there is one. -/
theorem removeKey_spec (key : List UInt8) :
    ∃ after, chains.removeKey key = .ok after ∧ after.Refines (table.removeKey key) := by
  obtain ⟨entries, linked, keys⟩ := refines
  cases found : (entries (hash key)).find? fun entry => entry.2 == key with
  | none =>
      have missed : ∀ entry ∈ entries (hash key), (entry.2 == key) = false := fun entry member =>
        Bool.eq_false_iff.mpr (List.find?_eq_none.mp found entry member)
      have absent : key ∉ table.buckets (hash key) := by
        rw [mem_bucket_iff keys, found]
        exact Bool.false_ne_true
      obtain ⟨link, sought⟩ := (linked.chain (hash key)).seekLink_none (fun other => other == key)
        missed (linked.length_le_fresh _) none
      refine ⟨chains, ?_, entries, linked, fun index => ?_⟩
      · simp only [removeKey, sought, ok_bind, pure_eq_ok]
      · rw [MuteTable.removeKey, ChainedSet.buckets_erase_absent absent, keys]
  | some entry =>
      obtain ⟨id, other⟩ := entry
      obtain ⟨matched, before, after, shape, missed⟩ := List.find?_eq_some_iff_append.mp found
      obtain rfl : other = key := by simpa using matched
      have skipped : ∀ entry ∈ before, (entry.2 == other) = false := fun entry member => by
        simpa using missed entry member
      rcases List.eq_nil_or_concat before with first | ⟨front, ⟨previous, kept⟩, inner⟩
      · rw [first] at shape
        exact removeKey_first linked keys shape
      · rw [List.concat_eq_append] at inner
        rw [inner] at shape skipped
        exact removeKey_inner linked keys shape skipped

/-- Every operation refines the one on the buckets. -/
theorem apply_spec (op : SetOp (List UInt8)) :
    ∃ after, chains.apply op = .ok after ∧ after.Refines (ChainedSet.apply hash table op) := by
  cases op with
  | insert key => exact refines.insert_spec key
  | erase key => exact refines.removeKey_spec key

end Refines

/-- The calls made one after the other, from the empty table. -/
def run (ops : List (SetOp (List UInt8))) : Except Fault MuteChains := ops.foldlM apply empty

theorem run_spec (ops : List (SetOp (List UInt8))) :
    ∃ chains, run ops = .ok chains ∧
      chains.Refines (ops.foldl (ChainedSet.apply hash) ChainedSet.empty) := by
  induction ops using List.reverseRecOn with
  | nil => exact ⟨empty, rfl, refines_empty⟩
  | append_singleton ops op ih =>
      obtain ⟨chains, done, refines⟩ := ih
      obtain ⟨after, applied, refines'⟩ := refines.apply_spec op
      refine ⟨after, ?_, ?_⟩
      · rw [run] at done
        rw [run, List.foldlM_append, done, ok_bind, List.foldlM_cons, applied]
        rfl
      · rw [List.foldl_append]
        exact refines'

/-- The table is the set of the keys whose last call was an insertion. -/
structure HoldsSet (chains : MuteChains) (ops : List (SetOp (List UInt8))) : Prop where
  member : ∀ key, ∃ found, chains.contains key = .ok found ∧
    (found = true ↔ SetOp.LastInserted ops key)
  /-- All chains end, and together they have no key twice. -/
  once : ∃ buckets : Fin tableSize → List (List UInt8),
    (∀ index, chains.bucket index = .ok (buckets index)) ∧
      ((List.finRange tableSize).flatMap buckets).Nodup ∧
      ∀ index, ∀ key ∈ buckets index, hash key = index
  removal : ∀ key, ∃ after, chains.removeKey key = .ok after ∧
    after.contains key = .ok false ∧ ∀ other ≠ key, after.contains other = chains.contains other

/-- What a table holds that refines the buckets after some operations. -/
theorem Refines.holdsSet {ops : List (SetOp (List UInt8))}
    (refines : chains.Refines (ops.foldl (ChainedSet.apply hash) ChainedSet.empty)) :
    chains.HoldsSet ops where
  member key := ⟨_, refines.contains_eq key, ChainedSet.contains_run ops⟩
  once := ⟨_, refines.bucket_eq, (ChainedSet.placed_run ops).nodup_flatMap,
    ChainedSet.placed_run ops⟩
  removal key := by
    obtain ⟨after, removed, refines'⟩ := refines.removeKey_spec key
    refine ⟨after, removed, ?_, fun other different => ?_⟩
    · rw [refines'.contains_eq, MuteTable.contains, MuteTable.removeKey]
      exact congrArg _ ChainedSet.contains_erase_self
    · rw [refines'.contains_eq, refines.contains_eq]
      exact congrArg _ (ChainedSet.contains_erase_of_ne different)

end MuteChains

/-- **The mute table is a set.** Whatever calls of `insert` and `remove_key` are made on the
empty table, it contains exactly the keys inserted last, each once and in its bucket. -/
theorem mute_table_is_set (ops : List (SetOp (List UInt8))) :
    ∃ chains, MuteChains.run ops = .ok chains ∧ chains.HoldsSet ops := by
  obtain ⟨chains, done, refines⟩ := MuteChains.run_spec ops
  exact ⟨chains, done, refines.holdsSet⟩

/-- The names `Al` and `BK` are in one bucket, and either can be taken out of the chain. -/
example : hash (CString.ascii "Al") = hash (CString.ascii "BK") := by decide

end MultithreadedChat
