import MultithreadedChat.Foundation.LinkedList

/-! # Several lists in one heap

A table of pointers, each to the first cell of a chain that ends at `NULL`, where no cell is
in two chains (`LinkedList.Chains`). Changing one chain leaves the others
(`LinkedList.Chains.change`); so a cell can be put in front of a chain or taken out of it.
-/

namespace LinkedList

variable {α ι : Type*}

/-- The pointers lead to these chains, and the chains have no cell in common. -/
structure Chains (heap : Heap α) (heads : ι → Ptr) (entries : ι → List (ℕ × α)) : Prop where
  bounded : heap.Bounded
  chain : ∀ index, Segment heap (heads index) (entries index) none
  apart : ∀ index other, index ≠ other →
    ∀ id ∈ (entries index).map Prod.fst, id ∉ (entries other).map Prod.fst

namespace Chains

theorem empty : Chains (.empty : Heap α) (fun _ : ι => none) (fun _ => []) where
  bounded _ _ := rfl
  chain _ := .nil none
  apart _ _ _ _ member := (List.not_mem_nil member).elim

variable {heap heap' : Heap α} {heads : ι → Ptr} {entries : ι → List (ℕ × α)}
  (chains : Chains heap heads entries)
include chains

/-- No chain is longer than the heap. -/
theorem length_le_fresh (index : ι) : (entries index).length ≤ heap.fresh :=
  (chains.chain index).length_le_fresh chains.bounded

variable [DecidableEq ι]

/-- Changing one chain, if the cells of the others are left alone and it gets none of them. -/
theorem change (index : ι) {head : Ptr} {changed : List (ℕ × α)} (bounded : heap'.Bounded)
    (chain : Segment heap' head changed none)
    (own : ∀ id ∈ changed.map Prod.fst, id ∈ (entries index).map Prod.fst ∨ heap.fresh ≤ id)
    (framed : ∀ other ≠ index, ∀ id ∈ (entries other).map Prod.fst,
      heap'.cell id = heap.cell id) :
    Chains heap' (Function.update heads index head) (Function.update entries index changed) := by
  have foreign : ∀ other ≠ index, ∀ id ∈ changed.map Prod.fst,
      id ∉ (entries other).map Prod.fst := by
    intro other different id member there
    rcases own id member with old | fresh
    · exact chains.apart index other different.symm id old there
    · exact absurd ((chains.chain other).lt_fresh chains.bounded there) (Nat.not_lt.mpr fresh)
  refine ⟨bounded, fun other => ?_, fun one two different id member => ?_⟩
  · by_cases here : other = index
    · subst here
      rw [Function.update_self, Function.update_self]
      exact chain
    · rw [Function.update_of_ne here, Function.update_of_ne here]
      exact (chains.chain other).congr (framed other here)
  · by_cases first : one = index
    · subst first
      rw [Function.update_self] at member
      rw [Function.update_of_ne different.symm]
      exact foreign two different.symm id member
    · rw [Function.update_of_ne first] at member
      by_cases second : two = index
      · subst second
        rw [Function.update_self]
        exact fun there => foreign one first id there member
      · rw [Function.update_of_ne second]
        exact chains.apart one two different id member

/-- A new cell in front of a chain. -/
theorem push (index : ι) (value : α) :
    Chains (heap.allocate ⟨value, heads index⟩) (Function.update heads index (some heap.fresh))
      (Function.update entries index ((heap.fresh, value) :: entries index)) := by
  have older : ∀ other, ∀ id ∈ (entries other).map Prod.fst,
      (heap.allocate ⟨value, heads index⟩).cell id = heap.cell id := by
    intro other id member
    exact Function.update_of_ne (Nat.ne_of_lt ((chains.chain other).lt_fresh chains.bounded member))
      ..
  refine chains.change index (chains.bounded.allocate _)
    (.cons (Function.update_self ..) ((chains.chain index).congr (older index))) ?_
    fun other _ => older other
  rintro id member
  rcases List.mem_cons.mp member with rfl | old
  · exact .inr (Nat.le_refl _)
  · exact .inl old

section Unlink

variable {index : ι} {id : ℕ} {value : α} {next : Ptr} {before after : List (ℕ × α)}
  (at_cell : heap.cell id = some ⟨value, next⟩)
include at_cell

/-- The first cell of a chain is taken out. -/
theorem unlink_first (shape : entries index = (id, value) :: after) :
    Chains (heap.release id) (Function.update heads index next)
      (Function.update entries index after) := by
  have chain := chains.chain index
  rw [shape] at chain
  have here : id ∈ (entries index).map Prod.fst := by simp [shape]
  refine chains.change index (chains.bounded.release id) (chain.unlink_first at_cell) ?_ ?_
  · intro other member
    rw [shape]
    exact .inl (List.mem_cons_of_mem _ member)
  · intro other different kept member
    refine Function.update_of_ne ?_ ..
    rintro rfl
    exact chains.apart other index different kept member here

/-- A cell behind another one is taken out. -/
theorem unlink {previous : ℕ} {kept : α}
    (shape : entries index = before ++ (previous, kept) :: (id, value) :: after) :
    Chains ((heap.store previous ⟨kept, next⟩).release id) heads
      (Function.update entries index (before ++ (previous, kept) :: after)) := by
  have chain := chains.chain index
  rw [shape] at chain
  obtain ⟨-, link, at_previous, -⟩ := chain.entry_inv
  have here : id ∈ (entries index).map Prod.fst := by simp [shape]
  have linked : previous ∈ (entries index).map Prod.fst := by simp [shape]
  have changed := chains.change index ((chains.bounded.store at_previous _).release id)
    (chain.unlink at_cell) ?_ ?_
  · rwa [Function.update_eq_self] at changed
  · intro other member
    refine .inl ?_
    rw [shape]
    simp only [List.map_append, List.map_cons, List.mem_append, List.mem_cons] at member ⊢
    tauto
  · intro other different visited member
    have notId : visited ≠ id := fun same =>
      chains.apart other index different visited member (same ▸ here)
    have notPrevious : visited ≠ previous := fun same =>
      chains.apart other index different visited member (same ▸ linked)
    simp only [Heap.release, Heap.store]
    rw [Function.update_of_ne notId, Function.update_of_ne notPrevious]

end Unlink

end Chains

end LinkedList
