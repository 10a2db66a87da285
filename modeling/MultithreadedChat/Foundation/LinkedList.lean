import Mathlib.Data.List.Nodup
import Mathlib.Data.List.Perm.Subperm
import Mathlib.Logic.Function.Basic

/-! # Singly linked lists in a heap

Cells are identified by the order of their allocation, and a released cell stays
released, so a pointer kept too long is seen to dangle. A *segment* is the chain
of cells met from one pointer to another (`LinkedList.Segment`); the chain from a
pointer to `NULL` is unique and repeats no cell (`LinkedList.Segment.unique`,
`LinkedList.Segment.nodup`).

The loops that walk a list are given a bound on their rounds, for which the number
of cells ever allocated is enough (`LinkedList.Segment.length_le_fresh`). On a
well-formed chain they never fault and find the first match
(`LinkedList.Segment.seek_eq`, `LinkedList.Segment.seekLink_eq`).
-/

namespace LinkedList

variable {α : Type*}

/-- `NULL` or the identifier of a cell. -/
abbrev Ptr := Option ℕ

structure Cell (α : Type*) where
  value : α
  next : Ptr

/-- The cells in use, and the identifier of the next allocation. -/
structure Heap (α : Type*) where
  cell : ℕ → Option (Cell α)
  fresh : ℕ

/-- Why a list operation cannot go on: it followed `NULL`, it followed a pointer
to a released cell, or its loop ran out of rounds. -/
inductive Fault
  | null
  | dangling
  | unending
  deriving DecidableEq, Repr

section Outcomes

variable {β γ : Type} (value : β) (fault : Fault) (next : β → Except Fault γ)

@[simp] theorem ok_bind : (Except.ok value >>= next) = next value := rfl

@[simp] theorem error_bind : (Except.error fault >>= next) = .error fault := rfl

@[simp] theorem pure_eq_ok : (pure value : Except Fault β) = .ok value := rfl

/-- A computation that succeeds has succeeded in its first part. -/
theorem exists_of_bind_eq_ok {first : Except Fault β} {next : β → Except Fault γ} {result : γ}
    (done : (first >>= next) = .ok result) :
    ∃ value, first = .ok value ∧ next value = .ok result := by
  cases first with
  | error fault => cases done
  | ok value => exact ⟨value, rfl, done⟩

end Outcomes

namespace Heap

def empty : Heap α := ⟨fun _ => none, 0⟩

variable (heap : Heap α)

/-- Follow a pointer. -/
def load : Ptr → Except Fault (Cell α)
  | none => .error .null
  | some id =>
    match heap.cell id with
    | none => .error .dangling
    | some cell => .ok cell

/-- A pointer that can be followed leads to the cell found. -/
theorem cell_of_load {heap : Heap α} {id : ℕ} {cell : Cell α}
    (loaded : heap.load (some id) = .ok cell) : heap.cell id = some cell := by
  simp only [load] at loaded
  split at loaded
  · cases loaded
  · rename_i found
    rw [found, Except.ok.inj loaded]

def store (id : ℕ) (cell : Cell α) : Heap α :=
  { heap with cell := Function.update heap.cell id (some cell) }

/-- Change the cell a pointer leads to. -/
def update (f : Cell α → Cell α) : Ptr → Except Fault (Heap α)
  | none => .error .null
  | some id =>
    match heap.cell id with
    | none => .error .dangling
    | some cell => .ok (heap.store id (f cell))

/-- Allocate a cell; its identifier is the old `fresh`. -/
def allocate (cell : Cell α) : Heap α :=
  ⟨Function.update heap.cell heap.fresh (some cell), heap.fresh + 1⟩

def release (id : ℕ) : Heap α :=
  { heap with cell := Function.update heap.cell id none }

/-- Every cell in use was allocated. -/
def Bounded : Prop := ∀ id, heap.fresh ≤ id → heap.cell id = none

/-- `while (node != NULL && !stop(node)) node = node->next;` -/
def seek (stop : α → Bool) : ℕ → Ptr → Except Fault Ptr
  | _, none => .ok none
  | 0, some _ => .error .unending
  | rounds + 1, some id =>
    match heap.cell id with
    | none => .error .dangling
    | some cell => if stop cell.value then .ok (some id) else seek stop rounds cell.next

/-- The same loop remembering the cell before the current one. -/
def seekLink (stop : α → Bool) : ℕ → Ptr → Ptr → Except Fault (Ptr × Ptr)
  | _, last, none => .ok (last, none)
  | 0, _, some _ => .error .unending
  | rounds + 1, last, some id =>
    match heap.cell id with
    | none => .error .dangling
    | some cell =>
      if stop cell.value then .ok (last, some id) else seekLink stop rounds (some id) cell.next

/-- `while (node != NULL) { visit(node); node = node->next; }` -/
def collect : ℕ → Ptr → Except Fault (List (ℕ × α))
  | _, none => .ok []
  | 0, some _ => .error .unending
  | rounds + 1, some id =>
    match heap.cell id with
    | none => .error .dangling
    | some cell => (collect rounds cell.next).map ((id, cell.value) :: ·)

/-- Writing to a cell leaves the same cells in use. -/
theorem cell_update {heap heap' : Heap α} {f : Cell α → Cell α} {node : Ptr}
    (updated : heap.update f node = .ok heap') (id : ℕ) :
    heap'.cell id = none ↔ heap.cell id = none := by
  cases node with
  | none => cases updated
  | some other =>
      simp only [update] at updated
      split at updated
      · cases updated
      · rename_i cell found
        cases updated
        by_cases same : id = other
        · subst same
          simp [store, found]
        · simp [store, Function.update_of_ne same]

/-- A cell that has just been written to can be followed. -/
theorem exists_load_of_update {heap heap' : Heap α} {f : Cell α → Cell α} {node : Ptr}
    (updated : heap.update f node = .ok heap') : ∃ cell, heap'.load node = .ok cell := by
  cases node with
  | none => cases updated
  | some id =>
      simp only [update] at updated
      split at updated
      · cases updated
      · rename_i cell found
        cases updated
        exact ⟨f cell, by simp [load, store]⟩

/-- The cells met on the way are in use, with the values found. -/
theorem cell_of_collect {heap : Heap α} {rounds : ℕ} {first : Ptr}
    {entries : List (ℕ × α)} (collected : heap.collect rounds first = .ok entries)
    {entry : ℕ × α} (member : entry ∈ entries) :
    ∃ next, heap.cell entry.1 = some ⟨entry.2, next⟩ := by
  induction rounds generalizing first entries with
  | zero =>
      cases first <;> cases collected
      cases member
  | succ rounds ih =>
      cases first with
      | none =>
          cases collected
          cases member
      | some id =>
          simp only [collect] at collected
          split at collected
          · cases collected
          · rename_i cell found
            cases rest : heap.collect rounds cell.next with
            | error fault =>
                rw [rest] at collected
                cases collected
            | ok others =>
                rw [rest] at collected
                cases collected
                rcases List.mem_cons.mp member with rfl | later
                · exact ⟨cell.next, found⟩
                · exact ih rest later

end Heap

/-- The chain of cells from one pointer up to another. -/
inductive Segment (heap : Heap α) : Ptr → List (ℕ × α) → Ptr → Prop
  | nil (p : Ptr) : Segment heap p [] p
  | cons {id : ℕ} {value : α} {next last : Ptr} {rest : List (ℕ × α)} :
      heap.cell id = some ⟨value, next⟩ → Segment heap next rest last →
        Segment heap (some id) ((id, value) :: rest) last

namespace Segment

variable {heap heap' : Heap α} {first middle last : Ptr} {entries before after : List (ℕ × α)}

theorem append (front : Segment heap first before middle)
    (back : Segment heap middle after last) : Segment heap first (before ++ after) last := by
  induction front with
  | nil => exact back
  | cons at_cell _ ih => exact .cons at_cell (ih back)

theorem split (whole : Segment heap first (before ++ after) last) :
    ∃ middle, Segment heap first before middle ∧ Segment heap middle after last := by
  induction before generalizing first with
  | nil => exact ⟨first, .nil first, whole⟩
  | cons entry before ih =>
      cases whole with
      | cons at_cell rest =>
          obtain ⟨middle, front, back⟩ := ih rest
          exact ⟨middle, .cons at_cell front, back⟩

/-- The head of a nonempty segment, and the cell it points to. -/
theorem cons_inv {id : ℕ} {value : α} (whole : Segment heap first ((id, value) :: after) last) :
    first = some id ∧ ∃ next, heap.cell id = some ⟨value, next⟩ ∧ Segment heap next after last := by
  cases whole with
  | cons at_cell rest => exact ⟨rfl, _, at_cell, rest⟩

/-- A chain that ends at `NULL` starts at its first cell. -/
theorem first_eq (whole : Segment heap first entries none) :
    first = entries.head?.map Prod.fst := by
  cases whole <;> rfl

/-- The cell of an entry, and where its pointer leads. -/
theorem entry_inv {id : ℕ} {value : α}
    (whole : Segment heap first (before ++ (id, value) :: after) last) :
    Segment heap first before (some id) ∧
      ∃ next, heap.cell id = some ⟨value, next⟩ ∧ Segment heap next after last := by
  obtain ⟨middle, front, back⟩ := whole.split
  obtain ⟨rfl, rest⟩ := back.cons_inv
  exact ⟨front, rest⟩

/-- The chain from a pointer to `NULL` is unique. -/
theorem unique {other : List (ℕ × α)} (one : Segment heap first entries none)
    (two : Segment heap first other none) : entries = other := by
  induction entries generalizing first other with
  | nil =>
      cases one
      cases two
      rfl
  | cons entry entries ih =>
      cases one with
      | cons at_cell rest =>
          cases two with
          | cons at_other tail =>
              rw [at_cell] at at_other
              cases at_other
              rw [ih rest tail]

/-- A chain that ends at `NULL` repeats no cell. -/
theorem nodup (chain : Segment heap first entries none) : (entries.map Prod.fst).Nodup := by
  induction entries generalizing first with
  | nil => exact List.nodup_nil
  | cons entry entries ih =>
      obtain ⟨id, value⟩ := entry
      have whole := chain
      obtain ⟨rfl, next, at_cell, rest⟩ := chain.cons_inv
      refine List.nodup_cons.mpr ⟨?_, ih rest⟩
      intro repeated
      obtain ⟨⟨same, again⟩, member, rfl⟩ := List.mem_map.mp repeated
      obtain ⟨front, back, rfl⟩ := List.append_of_mem member
      obtain ⟨middle, -, tail⟩ := rest.split
      obtain ⟨rfl, -⟩ := tail.cons_inv
      have lengths := congrArg List.length (whole.unique tail)
      simp at lengths
      omega

/-- A segment only depends on the cells it visits. -/
theorem congr (chain : Segment heap first entries last)
    (same : ∀ id ∈ entries.map Prod.fst, heap'.cell id = heap.cell id) :
    Segment heap' first entries last := by
  induction chain with
  | nil p => exact .nil p
  | cons at_cell _ ih =>
      refine .cons ((same _ (by simp)).trans at_cell) (ih fun id member => ?_)
      exact same id (List.mem_cons_of_mem _ member)

theorem mem_cell (chain : Segment heap first entries last) {id : ℕ} {value : α}
    (member : (id, value) ∈ entries) : ∃ next, heap.cell id = some ⟨value, next⟩ := by
  obtain ⟨front, back, rfl⟩ := List.append_of_mem member
  obtain ⟨-, next, at_cell, -⟩ := chain.entry_inv
  exact ⟨next, at_cell⟩

theorem lt_fresh (chain : Segment heap first entries last) (bounded : heap.Bounded) {id : ℕ}
    (member : id ∈ entries.map Prod.fst) : id < heap.fresh := by
  obtain ⟨⟨same, value⟩, entry, rfl⟩ := List.mem_map.mp member
  obtain ⟨next, at_cell⟩ := chain.mem_cell entry
  by_contra beyond
  rw [bounded same (Nat.le_of_not_lt beyond)] at at_cell
  cases at_cell

/-- A chain is no longer than the number of cells ever allocated. -/
theorem length_le_fresh (chain : Segment heap first entries none) (bounded : heap.Bounded) :
    entries.length ≤ heap.fresh := by
  have inside : entries.map Prod.fst ⊆ List.range heap.fresh := fun id member =>
    List.mem_range.mpr (chain.lt_fresh bounded member)
  have shorter := (List.subperm_of_subset chain.nodup inside).length_le
  rwa [List.length_map, List.length_range] at shorter

/-- The loop finds the first match of the chain, or its end. -/
theorem seek_eq (chain : Segment heap first entries none) (stop : α → Bool) {rounds : ℕ}
    (enough : entries.length ≤ rounds) :
    heap.seek stop rounds first =
      .ok ((entries.find? fun entry => stop entry.2).map Prod.fst) := by
  induction entries generalizing first rounds with
  | nil =>
      cases chain
      cases rounds <;> rfl
  | cons entry entries ih =>
      obtain ⟨id, value⟩ := entry
      obtain ⟨rfl, next, at_cell, rest⟩ := chain.cons_inv
      cases rounds with
      | zero => simp at enough
      | succ rounds =>
          simp only [Heap.seek, at_cell]
          cases found : stop value with
          | true => simp [found]
          | false =>
              simp only [Bool.false_eq_true, ↓reduceIte, List.find?_cons, found]
              exact ih rest (by simpa using enough)

/-- When the first cell matches, the loop with a trailing pointer stops there. -/
theorem seekLink_head {id : ℕ} {value : α} (chain : Segment heap first ((id, value) :: after) none)
    (stop : α → Bool) (found : stop value = true) {rounds : ℕ}
    (enough : ((id, value) :: after).length ≤ rounds) (previous : Ptr) :
    heap.seekLink stop rounds previous first = .ok (previous, some id) := by
  obtain ⟨rfl, next, at_cell, -⟩ := chain.cons_inv
  cases rounds with
  | zero => simp at enough
  | succ rounds => simp [Heap.seekLink, at_cell, found]

/-- The loop with a trailing pointer stops at the first match, with the pointer to
the cell before it. -/
theorem seekLink_eq {id : ℕ} {value : α}
    (chain : Segment heap first (before ++ (id, value) :: after) none) (stop : α → Bool)
    (missed : ∀ entry ∈ before, stop entry.2 = false) (found : stop value = true) {rounds : ℕ}
    (enough : (before ++ (id, value) :: after).length ≤ rounds) (previous : Ptr) :
    heap.seekLink stop rounds previous first =
      .ok ((before.getLast?.map Prod.fst).or previous, some id) := by
  induction before generalizing first rounds previous with
  | nil => exact chain.seekLink_head stop found enough previous
  | cons entry before ih =>
      obtain ⟨other, skipped⟩ := entry
      obtain ⟨rfl, next, at_cell, rest⟩ := chain.cons_inv
      cases rounds with
      | zero => simp at enough
      | succ rounds =>
          have passed : stop skipped = false := missed (other, skipped) (by simp)
          simp only [Heap.seekLink, at_cell, passed, Bool.false_eq_true, ↓reduceIte]
          rw [ih rest (fun entry member => missed entry (List.mem_cons_of_mem _ member))
            (by simpa using enough)]
          cases before with
          | nil => simp
          | cons entry before => simp [List.getLast?_cons]

/-- Without a match the loop with a trailing pointer ends at `NULL`. -/
theorem seekLink_none (chain : Segment heap first entries none) (stop : α → Bool)
    (missed : ∀ entry ∈ entries, stop entry.2 = false) {rounds : ℕ}
    (enough : entries.length ≤ rounds) (previous : Ptr) :
    ∃ link, heap.seekLink stop rounds previous first = .ok (link, none) := by
  induction entries generalizing first rounds previous with
  | nil =>
      cases chain
      cases rounds <;> exact ⟨previous, rfl⟩
  | cons entry entries ih =>
      obtain ⟨id, value⟩ := entry
      obtain ⟨rfl, next, at_cell, rest⟩ := chain.cons_inv
      cases rounds with
      | zero => simp at enough
      | succ rounds =>
          have passed : stop value = false := missed (id, value) (by simp)
          simp only [Heap.seekLink, at_cell, passed, Bool.false_eq_true, ↓reduceIte]
          exact ih rest (fun entry member => missed entry (List.mem_cons_of_mem _ member))
            (by simpa using enough) (some id)

/-- The visiting loop meets exactly the chain. -/
theorem collect_eq (chain : Segment heap first entries none) {rounds : ℕ}
    (enough : entries.length ≤ rounds) : heap.collect rounds first = .ok entries := by
  induction entries generalizing first rounds with
  | nil =>
      cases chain
      cases rounds <;> rfl
  | cons entry entries ih =>
      obtain ⟨id, value⟩ := entry
      obtain ⟨rfl, next, at_cell, rest⟩ := chain.cons_inv
      cases rounds with
      | zero => simp at enough
      | succ rounds =>
          simp only [Heap.collect, at_cell, ih rest (by simpa using enough)]
          rfl

/-- Writing the value of one cell changes that entry only. -/
theorem modify (chain : Segment heap first entries last) {id : ℕ} {value : α} {next : Ptr}
    (at_cell : heap.cell id = some ⟨value, next⟩) (f : α → α) :
    Segment (heap.store id ⟨f value, next⟩) first
      (entries.map fun entry => if entry.1 = id then (entry.1, f entry.2) else entry) last := by
  induction chain with
  | nil p => exact .nil p
  | @cons other value _ _ rest at_other _ ih =>
      by_cases same : other = id
      · subst same
        rw [at_cell] at at_other
        cases at_other
        simp only [List.map_cons, ↓reduceIte]
        exact .cons (Function.update_self ..) ih
      · simp only [List.map_cons, same, ↓reduceIte]
        exact .cons ((Function.update_of_ne same ..).trans at_other) ih

/-- Linking a new cell behind the last one extends the chain. -/
theorem link {id : ℕ} {value added : α}
    (chain : Segment heap first (before ++ [(id, value)]) none) (bounded : heap.Bounded) :
    Segment ((heap.allocate ⟨added, none⟩).store id ⟨value, some heap.fresh⟩) first
      (before ++ [(id, value), (heap.fresh, added)]) none := by
  have distinct := chain.nodup
  rw [List.map_append, List.nodup_append] at distinct
  have below : ∀ other ∈ (before ++ [(id, value)]).map Prod.fst, other < heap.fresh :=
    fun other member => chain.lt_fresh bounded member
  have idBelow : id < heap.fresh := below id (by simp)
  obtain ⟨front, -⟩ := chain.entry_inv
  refine (front.congr fun other member => ?_).append
    (.cons (Function.update_self ..) (.cons ?_ (.nil none)))
  · have different : other ≠ id := distinct.2.2 other member id (by simp)
    have older : other ≠ heap.fresh := Nat.ne_of_lt (below other (by
      rw [List.map_append]
      exact List.mem_append_left _ member))
    simp only [Heap.store, Heap.allocate]
    rw [Function.update_of_ne different, Function.update_of_ne older]
  · simp only [Heap.store, Heap.allocate]
    rw [Function.update_of_ne (Nat.ne_of_gt idBelow), Function.update_self]

/-- A chain does not see the release of a cell outside it. -/
theorem release (chain : Segment heap first entries last) {id : ℕ}
    (outside : id ∉ entries.map Prod.fst) : Segment (heap.release id) first entries last := by
  refine chain.congr fun other member => Function.update_of_ne ?_ ..
  rintro rfl
  exact outside member

/-- Releasing the first cell leaves the chain behind it. -/
theorem unlink_first {id : ℕ} {value : α} {next : Ptr}
    (chain : Segment heap first ((id, value) :: after) none)
    (at_cell : heap.cell id = some ⟨value, next⟩) : Segment (heap.release id) next after none := by
  have distinct := List.nodup_cons.mp chain.nodup
  obtain ⟨-, other, at_other, rest⟩ := chain.cons_inv
  rw [at_cell] at at_other
  cases at_other
  exact rest.release distinct.1

/-- Redirecting the pointer before a cell around it, and releasing it, takes
exactly that entry out of the chain. -/
theorem unlink {id previous : ℕ} {value kept : α} {next : Ptr}
    (chain : Segment heap first (before ++ (previous, kept) :: (id, value) :: after) none)
    (at_cell : heap.cell id = some ⟨value, next⟩) :
    Segment ((heap.store previous ⟨kept, next⟩).release id) first
      (before ++ (previous, kept) :: after) none := by
  have distinct := chain.nodup
  simp only [List.map_append, List.map_cons, List.nodup_append, List.nodup_cons,
    List.mem_cons, not_or] at distinct
  obtain ⟨-, ⟨⟨different, previousFresh⟩, idFresh, -⟩, crossed⟩ := distinct
  obtain ⟨front, step, -, tail⟩ := chain.entry_inv
  obtain ⟨-, other, at_other, rest⟩ := tail.cons_inv
  rw [at_cell] at at_other
  cases at_other
  refine (front.congr fun visited member => ?_).append
    (.cons ?_ (rest.congr fun visited member => ?_))
  · have notPrevious := crossed visited member previous (by simp)
    have notId := crossed visited member id (by simp)
    simp only [Heap.release, Heap.store]
    rw [Function.update_of_ne notId, Function.update_of_ne notPrevious]
  · simp only [Heap.release, Heap.store]
    rw [Function.update_of_ne different, Function.update_self]
  · have notId : visited ≠ id := fun same => idFresh (same ▸ member)
    have notPrevious : visited ≠ previous := fun same => previousFresh (same ▸ member)
    simp only [Heap.release, Heap.store]
    rw [Function.update_of_ne notId, Function.update_of_ne notPrevious]

end Segment

namespace Heap.Bounded

variable {heap : Heap α} (bounded : heap.Bounded)
include bounded

theorem allocate (cell : Cell α) : (heap.allocate cell).Bounded := by
  intro id beyond
  have older : id ≠ heap.fresh := Nat.ne_of_gt (Nat.lt_of_succ_le beyond)
  exact (Function.update_of_ne older ..).trans (bounded id (Nat.le_of_succ_le beyond))

theorem store {id : ℕ} {old : Cell α} (used : heap.cell id = some old) (cell : Cell α) :
    (heap.store id cell).Bounded := by
  intro other beyond
  have different : other ≠ id := by
    rintro rfl
    rw [bounded other beyond] at used
    cases used
  exact (Function.update_of_ne different ..).trans (bounded other beyond)

theorem release (id : ℕ) : (heap.release id).Bounded := by
  intro other beyond
  simp only [Heap.release, Function.update_apply]
  split
  · rfl
  · exact bounded other beyond

end Heap.Bounded

/-- The cell with its value changed. -/
def Cell.map {α β : Type*} (f : α → β) (cell : Cell α) : Cell β := ⟨f cell.value, cell.next⟩

namespace Heap
variable {α β : Type*} (f : α → β) (heap : Heap α)

/-- All values changed in the same way. -/
def map : Heap β := ⟨fun id => (heap.cell id).map (Cell.map f), heap.fresh⟩

@[simp] theorem map_fresh : (heap.map f).fresh = heap.fresh := rfl

theorem load_map {α β : Type} (f : α → β) (heap : Heap α) (node : Ptr) :
    (heap.map f).load node = (heap.load node).map (Cell.map f) := by
  cases node with
  | none => rfl
  | some id => cases at_cell : heap.cell id <;> simp [load, map, at_cell, Except.map]

theorem map_store (id : ℕ) (cell : Cell α) :
    (heap.store id cell).map f = (heap.map f).store id (cell.map f) := by
  simp only [map, store, Heap.mk.injEq, and_true]
  funext other
  by_cases same : other = id
  · simp [same]
  · simp [same]

theorem map_allocate (cell : Cell α) :
    (heap.allocate cell).map f = (heap.map f).allocate (cell.map f) := by
  simp only [map, allocate, Heap.mk.injEq, and_true]
  funext other
  by_cases same : other = heap.fresh
  · simp [same]
  · simp [same]

theorem map_release (id : ℕ) : (heap.release id).map f = (heap.map f).release id := by
  simp only [map, release, Heap.mk.injEq, and_true]
  funext other
  by_cases same : other = id
  · simp [same]
  · simp [same]

end Heap

section Map

variable {β : Type*} (f : α → β) {heap : Heap α} {first last : Ptr}

/-- The chain of the changed values. -/
theorem Segment.map {entries : List (ℕ × α)} (chain : Segment heap first entries last) :
    Segment (heap.map f) first (entries.map (Prod.map id f)) last := by
  induction chain with
  | nil p => exact .nil p
  | cons at_cell _ ih => exact .cons (congrArg (Option.map (Cell.map f)) at_cell) ih

/-- A chain of changed values comes from a chain. -/
theorem Segment.of_map {entries : List (ℕ × β)} (chain : Segment (heap.map f) first entries last) :
    ∃ entries', Segment heap first entries' last ∧ entries = entries'.map (Prod.map id f) := by
  induction chain with
  | nil p => exact ⟨[], .nil p, rfl⟩
  | @cons id value next last rest at_cell _ ih =>
      obtain ⟨entries', chain, rfl⟩ := ih
      obtain ⟨cell, found, same⟩ := Option.map_eq_some_iff.mp at_cell
      cases same
      exact ⟨(id, cell.value) :: entries', .cons found chain, rfl⟩

theorem Heap.Bounded.map_iff : (heap.map f).Bounded ↔ heap.Bounded := by
  simp [Heap.Bounded, Heap.map]

end Map

/-! ## When a computation succeeds -/

/-- The computation succeeds exactly under a condition, and does not run on forever. -/
structure Ends {β : Type} (computation : Except Fault β) (condition : Prop) : Prop where
  ok_iff : (∃ result, computation = .ok result) ↔ condition
  ends : computation ≠ .error .unending

namespace Ends

variable {β γ : Type} {computation : Except Fault β} {next : β → Except Fault γ}
  {condition condition' : Prop}

theorem ok (result : β) : Ends (.ok result : Except Fault β) True :=
  ⟨iff_of_true ⟨result, rfl⟩ trivial, nofun⟩

theorem of_ok {result : β} (done : computation = .ok result) : Ends computation True :=
  done ▸ .ok result

theorem congr (ends : Ends computation condition) (same : condition ↔ condition') :
    Ends computation condition' :=
  ⟨ends.ok_iff.trans same, ends.ends⟩

/-- A computation that goes on. -/
theorem bind (first : Ends computation condition)
    (rest : ∀ value, computation = .ok value → Ends (next value) condition') :
    Ends (computation >>= next) (condition ∧ condition') := by
  cases done : computation with
  | error fault =>
      rw [done] at first
      refine ⟨iff_of_false nofun fun both => ?_, fun same => ?_⟩
      · obtain ⟨result, same⟩ := first.ok_iff.mpr both.1
        cases same
      · exact first.ends (congrArg _ (Except.error.inj same))
  | ok value =>
      have later := rest value done
      rw [ok_bind]
      have here := (done ▸ first).ok_iff.mp ⟨value, rfl⟩
      exact ⟨later.ok_iff.trans (and_iff_right here).symm, later.ends⟩

/-- Only the outcome of the first part counts. -/
theorem bind_ok (first : Ends computation condition) (f : β → γ) :
    Ends (computation >>= fun value => .ok (f value)) condition :=
  (first.bind fun value _ => .ok (f value)).congr (and_iff_left trivial)

end Ends

namespace Heap

variable {α : Type} (heap : Heap α)

theorem load_ends (node : Ptr) :
    Ends (heap.load node) (∃ id, node = some id ∧ heap.cell id ≠ none) := by
  cases node with
  | none => exact ⟨iff_of_false nofun nofun, nofun⟩
  | some id =>
      rw [load]
      cases found : heap.cell id with
      | none => exact ⟨iff_of_false nofun (by simp [found]), nofun⟩
      | some cell => exact (Ends.ok cell).congr (iff_of_true trivial ⟨id, rfl, by simp [found]⟩)

theorem update_ends (f : Cell α → Cell α) (node : Ptr) :
    Ends (heap.update f node) (∃ id, node = some id ∧ heap.cell id ≠ none) := by
  cases node with
  | none => exact ⟨iff_of_false nofun nofun, nofun⟩
  | some id =>
      rw [update]
      cases found : heap.cell id with
      | none => exact ⟨iff_of_false nofun (by simp [found]), nofun⟩
      | some cell => exact (Ends.ok _).congr (iff_of_true trivial ⟨id, rfl, by simp [found]⟩)

end Heap

end LinkedList
