import Mathlib.Data.List.Basic
import Mathlib.Logic.Function.Basic

/-! # Arrays whose accesses are checked

Arrays of a fixed size that are read and written at an index, where an index outside the
array is a fault. An array of pointers holds a list of values if they are followed by `NULL`
(`CheckedArray.Terminated`); a loop that stops there reads no further.
-/

namespace CheckedArray

/-- Why a loop over an array cannot go on: it left the array, or ran out of rounds. -/
inductive Fault
  | outOfBounds (index : ℕ)
  | unending
  deriving DecidableEq, Repr

variable {α : Type} {size : ℕ}

def readAt (array : Fin size → α) (index : ℕ) : Except Fault α :=
  if inside : index < size then .ok (array ⟨index, inside⟩) else .error (.outOfBounds index)

def writeAt (array : Fin size → α) (index : ℕ) (value : α) : Except Fault (Fin size → α) :=
  if inside : index < size then .ok (Function.update array ⟨index, inside⟩ value)
  else .error (.outOfBounds index)

theorem readAt_eq (array : Fin size → α) {index : ℕ} (inside : index < size) :
    readAt array index = .ok (array ⟨index, inside⟩) := dif_pos inside

theorem writeAt_eq (array : Fin size → α) {index : ℕ} (inside : index < size) (value : α) :
    writeAt array index value = .ok (Function.update array ⟨index, inside⟩ value) := dif_pos inside

/-- The rest of an array starts with the value that is read. -/
theorem drop_ofFn (array : Fin size → α) {index : ℕ} (inside : index < size) :
    (List.ofFn array).drop index = array ⟨index, inside⟩ :: (List.ofFn array).drop (index + 1) := by
  rw [List.drop_eq_getElem_cons (by rwa [List.length_ofFn]), List.getElem_ofFn]

/-- The array with values written into it from an index on. -/
def overwrite (array : Fin size → α) (start : ℕ) (values : List α) : Fin size → α := fun index =>
  if index.val < start then array index else (values[index.val - start]?).getD (array index)

@[simp] theorem overwrite_nil (array : Fin size → α) (start : ℕ) :
    overwrite array start [] = array := by
  funext index
  simp [overwrite]

/-- The first value is written, and then the others. -/
theorem overwrite_cons (array : Fin size → α) {start : ℕ} (inside : start < size) (value : α)
    (values : List α) :
    overwrite array start (value :: values) =
      overwrite (Function.update array ⟨start, inside⟩ value) (start + 1) values := by
  funext index
  unfold overwrite
  by_cases here : index.val = start
  · have same : index = ⟨start, inside⟩ := Fin.ext here
    subst same
    simp
  · have other : index ≠ ⟨start, inside⟩ := fun same => here (congrArg Fin.val same)
    rw [Function.update_of_ne other]
    by_cases before : index.val < start
    · rw [if_pos before, if_pos (Nat.lt_succ_of_lt before)]
    · have next : index.val - start = index.val - (start + 1) + 1 := by omega
      rw [if_neg before, if_neg (by omega), next, List.getElem?_cons_succ]

section Outcomes

variable {β : Type} (value : α) (fault : Fault) (next : α → Except Fault β)

@[simp] theorem ok_bind : (Except.ok value >>= next) = next value := rfl

@[simp] theorem pure_eq_ok : (pure value : Except Fault α) = .ok value := rfl

end Outcomes

/-! ## Arrays that end with `NULL` -/

/-- The array starts with these values, and `NULL` behind them. -/
structure Terminated (array : Fin size → Option α) (values : List α) : Prop where
  fits : values.length < size
  value : ∀ index : Fin size, index.val < values.length → array index = values[index.val]?
  null : array ⟨values.length, fits⟩ = none

/-- Reading up to the `NULL` stays in the array. -/
theorem Terminated.readAt_eq {array : Fin size → Option α} {values : List α}
    (terminated : Terminated array values) {index : ℕ} (within : index ≤ values.length) :
    readAt array index = .ok values[index]? := by
  have inside : index < size := Nat.lt_of_le_of_lt within terminated.fits
  rw [CheckedArray.readAt_eq array inside]
  rcases Nat.lt_or_eq_of_le within with before | rfl
  · rw [terminated.value ⟨index, inside⟩ before]
  · rw [terminated.null, List.getElem?_eq_none (Nat.le_refl _)]

/-- What is read through the pointers is terminated as they are. -/
theorem Terminated.map {β : Type} {array : Fin size → Option α} {values : List α}
    (terminated : Terminated array values) (f : α → β) :
    Terminated (fun index => (array index).map f) (values.map f) where
  fits := by
    rw [List.length_map]
    exact terminated.fits
  value index within := by
    rw [List.length_map] at within
    rw [terminated.value index within, List.getElem?_map]
  null := by
    have null := terminated.null
    simp only [List.length_map, null, Option.map_none]

/-- Values that are written from the start of an array, and a `NULL` behind them. -/
theorem terminated_overwrite (array : Fin size → Option α) {values : List α}
    (fits : values.length < size) :
    Terminated (Function.update (overwrite array 0 (values.map some)) ⟨values.length, fits⟩ none)
      values where
  fits := fits
  value index within := by
    have other : index ≠ ⟨values.length, fits⟩ := by
      rintro rfl
      exact Nat.lt_irrefl _ within
    rw [Function.update_of_ne other, overwrite, if_neg (Nat.not_lt_zero _), Nat.sub_zero,
      List.getElem?_map, List.getElem?_eq_getElem within]
    rfl
  null := Function.update_self ..

end CheckedArray
