import Mathlib.Algebra.GroupWithZero.Nat
import Mathlib.Data.List.TakeWhile

/-! # NUL-terminated strings in buffers of fixed size

The contents of a `char[size]` buffer as a string: the bytes before the
terminator, fewer than `size` of them and none of them NUL. Copying into a buffer
cuts at the first NUL and at the size of the buffer (`CString.ofBytes`), and
loses nothing of a string that fits (`CString.ofBytes_bytes`).
-/

/-- A string held by a buffer of `size` bytes. -/
@[ext] structure CString (size : ℕ) where
  bytes : List UInt8
  noNul : 0 ∉ bytes
  fits : bytes.length < size
  deriving DecidableEq

namespace CString

/-- The bytes of a text of ASCII characters. -/
def ascii (text : String) : List UInt8 := text.toList.map fun c => UInt8.ofNat c.toNat

/-- A text without NUL is not cut. -/
theorem takeWhile_noNul {text : List UInt8} (noNul : 0 ∉ text) :
    text.takeWhile (· ≠ 0) = text := by
  apply List.takeWhile_eq_self_iff.mpr
  intro byte member
  have present : byte ≠ 0 := fun nul => noNul (nul ▸ member)
  simpa using present

variable {size : ℕ}

/-- Equal strings are what `strcmp` calls equal. -/
theorem bytes_injective : Function.Injective (bytes : CString size → List UInt8) :=
  fun _ _ => CString.ext

variable [NeZero size]

variable (size) in
/-- Copying bytes into a buffer of `size` bytes, up to their first NUL, and
terminating the buffer. -/
def ofBytes (text : List UInt8) : CString size where
  bytes := (text.takeWhile (· ≠ 0)).take (size - 1)
  noNul := by
    intro member
    have kept := List.mem_takeWhile_imp (List.mem_of_mem_take member)
    simp at kept
  fits := by
    have positive := Nat.pos_of_neZero size
    have shorter := List.length_take_le (size - 1) (text.takeWhile (· ≠ 0))
    omega

variable (size) in
/-- A buffer whose first byte is the terminator. -/
def empty : CString size := ⟨[], List.not_mem_nil, Nat.pos_of_neZero size⟩

/-- A text without NUL that fits is copied whole. -/
theorem bytes_ofBytes {text : List UInt8} (noNul : 0 ∉ text) (fits : text.length < size) :
    (ofBytes size text).bytes = text := by
  simp only [ofBytes, takeWhile_noNul noNul]
  exact List.take_of_length_le (by omega)

/-- Copying a terminated text that fits copies the text. -/
theorem ofBytes_terminated {text : List UInt8} (noNul : 0 ∉ text) (fits : text.length < size)
    (leftover : List UInt8) : (ofBytes size (text ++ 0 :: leftover)).bytes = text := by
  have whole := takeWhile_noNul noNul
  have cut : (text ++ 0 :: leftover).takeWhile (· ≠ 0) = text := by
    rw [List.takeWhile_append_of_pos (List.takeWhile_eq_self_iff.mp whole),
      List.takeWhile_cons_of_neg (by simp), List.append_nil]
  simp only [ofBytes, cut]
  exact List.take_of_length_le (by omega)

/-- Copying a string into a buffer of its own size is the identity. -/
@[simp] theorem ofBytes_bytes (text : CString size) : ofBytes size text.bytes = text :=
  bytes_injective (bytes_ofBytes text.noNul text.fits)

end CString
