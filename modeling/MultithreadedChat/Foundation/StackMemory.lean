import Mathlib.Data.Set.Function
import Mathlib.Order.Interval.Set.Basic

/-! # Sending memory that is not cleared

Procedures write into a memory and send windows of it to addresses. Nothing clears a
window before it is sent, so a packet may carry what an earlier procedure left there.

A set of addresses is kept from an observer if no window is sent to the observer
before what the window shares with the set has been written again
(`StackMemory.KeptFrom`). Two memories that agree outside such a set send the observer
the same packets (`StackMemory.KeptFrom.packets_eq`).
-/

/-- A memory, by address. -/
abbrev StackMemory := ℕ → UInt8

namespace StackMemory

/-- The addresses of a window. -/
abbrev window (base size : ℕ) : Set ℕ := Set.Ico base (base + size)

/-- The bytes of a window. -/
def read (memory : StackMemory) (base size : ℕ) : List UInt8 :=
  (List.range' base size).map memory

/-- Bytes stored from an address on. -/
def write (memory : StackMemory) (base : ℕ) (bytes : List UInt8) : StackMemory := fun address =>
  if base ≤ address then (bytes[address - base]?).getD (memory address) else memory address

variable {first second : StackMemory} {secret : Set ℕ} {base size : ℕ} {bytes : List UInt8}

/-- What is written is there. -/
theorem read_write (memory : StackMemory) (long : bytes.length ≤ size) :
    (memory.write base bytes).read base size =
      bytes ++ memory.read (base + bytes.length) (size - bytes.length) := by
  have split : List.range' base size =
      List.range' base bytes.length ++
        List.range' (base + bytes.length) (size - bytes.length) := by
    rw [List.range'_append_1, Nat.add_sub_cancel' long]
  rw [read, read, split, List.map_append]
  congr 1
  · apply List.ext_getElem
    · simp
    · intro position here there
      simp [write, there]
  · apply List.map_congr_left
    intro address member
    obtain ⟨behind, -⟩ := List.mem_range'_1.mp member
    have outside : bytes.length ≤ address - base := by omega
    simp [write, outside]

/-- A write leaves what is not in its window. -/
theorem write_outside (memory : StackMemory) {address : ℕ}
    (outside : address ∉ window base bytes.length) :
    memory.write base bytes address = memory address := by
  unfold write
  split
  · next above =>
    have behind : bytes.length ≤ address - base := by
      by_contra inside
      exact outside ⟨above, by omega⟩
    rw [List.getElem?_eq_none behind, Option.getD_none]
  · rfl

/-- Memories agree where the same bytes have been written. -/
theorem write_eqOn (agree : Set.EqOn first second secretᶜ) (base : ℕ) (bytes : List UInt8) :
    Set.EqOn (first.write base bytes) (second.write base bytes)
      (secret \ window base bytes.length)ᶜ := by
  intro address shown
  by_cases inside : address ∈ window base bytes.length
  · obtain ⟨above, below⟩ := inside
    have within : address - base < bytes.length := by omega
    simp only [write, above, ↓reduceIte, List.getElem?_eq_getElem within, Option.getD_some]
  · have kept : address ∉ secret := fun member => shown ⟨member, inside⟩
    rw [write_outside _ inside, write_outside _ inside]
    exact agree kept

theorem read_congr (agree : Set.EqOn first second secretᶜ)
    (apart : ∀ address ∈ window base size, address ∉ secret) :
    first.read base size = second.read base size := by
  apply List.map_congr_left
  intro address member
  obtain ⟨above, below⟩ := List.mem_range'_1.mp member
  exact agree (apart address ⟨above, below⟩)

/-- What a procedure does with the memory. -/
inductive Op (Addr : Type*)
  | write (base : ℕ) (bytes : List UInt8)
  | send (addr : Addr) (base size : ℕ)

variable {Addr : Type*}

/-- The memory after some operations. -/
def after (memory : StackMemory) : List (Op Addr) → StackMemory
  | [] => memory
  | .write base bytes :: ops => (memory.write base bytes).after ops
  | .send _ _ _ :: ops => memory.after ops

/-- The packets that some operations send, and the addresses they go to. -/
def packets (memory : StackMemory) : List (Op Addr) → List (Addr × List UInt8)
  | [] => []
  | .write base bytes :: ops => (memory.write base bytes).packets ops
  | .send addr base size :: ops => (addr, memory.read base size) :: memory.packets ops

/-- The addresses that some operations write. -/
def written : List (Op Addr) → Set ℕ
  | [] => ∅
  | .write base bytes :: ops => window base bytes.length ∪ written ops
  | .send _ _ _ :: ops => written ops

/-- Whether an operation writes only below a bound. -/
def Op.writesBelow (bound : ℕ) : Op Addr → Bool
  | .write base bytes => base + bytes.length ≤ bound
  | .send _ _ _ => true

/-- Whether an operation sends nothing from below a bound. -/
def Op.sendsAbove (bound : ℕ) : Op Addr → Bool
  | .write _ _ => true
  | .send _ base _ => bound ≤ base

variable {ops later : List (Op Addr)}

theorem written_subset {bound : ℕ} (below : ∀ op ∈ ops, op.writesBelow bound = true) :
    written ops ⊆ Set.Iio bound := by
  induction ops with
  | nil => exact Set.empty_subset _
  | cons op ops ih =>
      obtain ⟨here, rest⟩ := List.forall_mem_cons.mp below
      cases op with
      | write base bytes =>
          have ends : base + bytes.length ≤ bound := of_decide_eq_true here
          refine Set.union_subset ?_ (ih rest)
          rintro address ⟨-, inside⟩
          exact Nat.lt_of_lt_of_le inside ends
      | send addr base size => exact ih rest

theorem packets_append (memory : StackMemory) :
    memory.packets (ops ++ later) = memory.packets ops ++ (memory.after ops).packets later := by
  induction ops generalizing memory with
  | nil => rfl
  | cons op ops ih =>
      cases op with
      | write base bytes => exact ih (memory.write base bytes)
      | send addr base size => exact congrArg (_ :: ·) (ih memory)

theorem after_outside (memory : StackMemory) {address : ℕ} (outside : address ∉ written ops) :
    memory.after ops address = memory address := by
  induction ops generalizing memory with
  | nil => rfl
  | cons op ops ih =>
      cases op with
      | write base bytes =>
          have apart : address ∉ window base bytes.length ∧ address ∉ written ops := by
            simpa [written] using outside
          exact (ih (memory.write base bytes) apart.2).trans (memory.write_outside apart.1)
      | send addr base size => exact ih memory outside

/-- Whichever operations are done with a memory, it is the same but for what they write. -/
theorem after_eqOn (memory : StackMemory) (ops later : List (Op Addr)) :
    Set.EqOn (memory.after ops) (memory.after later) (written ops ∪ written later)ᶜ := by
  intro address outside
  obtain ⟨here, there⟩ := not_or.mp outside
  rw [memory.after_outside here, memory.after_outside there]

/-- No window is sent to an observer that shares an address with the secret, unless the
address has been written before. -/
def KeptFrom (observer : Addr) : Set ℕ → List (Op Addr) → Prop
  | _, [] => True
  | secret, .write base bytes :: ops => KeptFrom observer (secret \ window base bytes.length) ops
  | secret, .send addr base size :: ops =>
    (addr = observer → ∀ address ∈ window base size, address ∉ secret) ∧
      KeptFrom observer secret ops

namespace KeptFrom

variable {observer : Addr}

theorem union {other : Set ℕ} (one : KeptFrom observer secret ops)
    (both : KeptFrom observer other ops) : KeptFrom observer (secret ∪ other) ops := by
  induction ops generalizing secret other with
  | nil => trivial
  | cons op ops ih =>
      cases op with
      | write base bytes =>
          rw [KeptFrom, Set.union_sdiff_distrib]
          exact ih one both
      | send addr base size =>
          refine ⟨?_, ih one.2 both.2⟩
          intro reached address inside hidden
          rcases hidden with ours | theirs
          · exact one.1 reached address inside ours
          · exact both.1 reached address inside theirs

/-- The observer is sent no window of the secret. -/
theorem of_apart
    (apart : ∀ base size, .send observer base size ∈ ops →
      ∀ address ∈ window base size, address ∉ secret) :
    KeptFrom observer secret ops := by
  induction ops generalizing secret with
  | nil => trivial
  | cons op ops ih =>
      cases op with
      | write base bytes =>
          apply ih
          intro start size member address inside hidden
          exact apart start size (List.mem_cons_of_mem _ member) address inside hidden.1
      | send addr base size =>
          refine ⟨?_, ih fun start size member => apart start size (List.mem_cons_of_mem _ member)⟩
          rintro rfl
          exact apart base size List.mem_cons_self

/-- What is written below a bound is not sent from above it. -/
theorem of_bound {bound : ℕ} (below : ∀ op ∈ ops, op.writesBelow bound = true)
    (above : ∀ op ∈ later, op.sendsAbove bound = true) :
    KeptFrom observer (written ops) later := by
  apply of_apart
  intro base size member address inside hidden
  have starts : bound ≤ base := of_decide_eq_true (above _ member)
  have here : address < bound := written_subset below hidden
  exact absurd (Nat.lt_of_lt_of_le here starts) (Nat.not_lt.mpr inside.1)

/-- The observer's packets are the same whatever the secret. -/
theorem packets_eq [DecidableEq Addr] (kept : KeptFrom observer secret ops)
    (agree : Set.EqOn first second secretᶜ) :
    (first.packets ops).filter (fun packet => packet.1 = observer) =
      (second.packets ops).filter (fun packet => packet.1 = observer) := by
  induction ops generalizing first second secret with
  | nil => rfl
  | cons op ops ih =>
      cases op with
      | write base bytes => exact ih kept (write_eqOn agree base bytes)
      | send addr base size =>
          obtain ⟨apart, kept⟩ := kept
          have rest := ih kept agree
          by_cases reached : addr = observer
          · have same := read_congr agree (apart reached)
            simp only [packets, reached, decide_true, List.filter_cons_of_pos, same, rest]
          · simpa [packets, reached] using rest

end KeptFrom

end StackMemory
