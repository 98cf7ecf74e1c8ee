import Korolev.Library.Bytes

set_option relaxedAutoImplicit false
set_option autoImplicit false

/-!
# The integer types of the kernel

`include/base.h` names the fixed-width unsigned types of the kernel and of its tools;
`include/errno.h` has the error numbers. Arithmetic on them is C's: modulo the width.

## Main definitions

* `Korolev.BYTE`, `Korolev.WORD`, `Korolev.LONG`, `Korolev.QWORD` — the unsigned types.
* `Korolev.ENOENT`, `Korolev.EMFILE`, `Korolev.ENOSPC` — the error numbers in use.
-/

namespace Korolev

/-- `typedef uint8_t BYTE` -/
abbrev BYTE := UInt8

/-- `typedef uint16_t WORD` -/
abbrev WORD := UInt16

/-- `typedef uint32_t LONG`; also the kernel's `size_t` and its pointers. -/
abbrev LONG := UInt32

/-- `typedef uint64_t QWORD` -/
abbrev QWORD := UInt64

/-- No such file. -/
def ENOENT : LONG := 2

/-- Too many open files. -/
def EMFILE : LONG := 24

/-- No space left on device. -/
def ENOSPC : LONG := 28

/-- A `LONG` is nonzero iff its value is. -/
lemma toNat_ne_zero {n : LONG} : n.toNat ≠ 0 ↔ n ≠ 0 := by
  rw [Ne, Ne, ← UInt32.toNat_inj]
  rfl

/-- A small number stored in a `LONG`. -/
lemma toNat_ofNat_of_lt {i : ℕ} (h : i < 2 ^ 32) : (UInt32.ofNat i).toNat = i := by
  rw [UInt32.toNat_ofNat', Nat.mod_eq_of_lt h]

/-- The increment of a counter of type `LONG`. -/
lemma ofNat_add_one (i : ℕ) : UInt32.ofNat i + 1 = UInt32.ofNat (i + 1) := by
  rw [UInt32.ofNat_add]
  rfl

/-- A counter that is not used up. -/
lemma ofNat_succ_ne_zero {n : ℕ} (hn : n + 1 < 2 ^ 32) : UInt32.ofNat (n + 1) ≠ 0 := by
  rw [← toNat_ne_zero, toNat_ofNat_of_lt hn]
  exact Nat.succ_ne_zero n

/-- The decrement of a counter. -/
lemma ofNat_succ_sub_one (n : ℕ) : UInt32.ofNat (n + 1) - 1 = UInt32.ofNat n := by
  rw [← ofNat_add_one, UInt32.add_sub_cancel]

/-- The position that counting starts from. -/
lemma add_ofNat_zero (i : LONG) : i + UInt32.ofNat 0 = i := UInt32.add_zero i

/-- Counting from the next position. -/
lemma add_one_add_ofNat (i : LONG) (k : ℕ) :
    i + 1 + UInt32.ofNat k = i + UInt32.ofNat (k + 1) := by
  rw [← ofNat_add_one k, UInt32.add_assoc, UInt32.add_comm 1]

/-- A position that does not wrap around. -/
lemma toNat_add_ofNat {i : LONG} {k : ℕ} (h : i.toNat + k < 2 ^ 32) :
    (i + UInt32.ofNat k).toNat = i.toNat + k := by
  rw [UInt32.toNat_add, toNat_ofNat_of_lt (by omega), Nat.mod_eq_of_lt h]

/-- A counter that is below some `LONG` does not wrap around. -/
lemma toNat_succ_of_lt {i n : LONG} (h : i.toNat < n.toNat) : (i + 1).toNat = i.toNat + 1 := by
  have hn := n.toNat_lt
  rw [UInt32.toNat_add, UInt32.toNat_one, Nat.mod_eq_of_lt (by omega)]

end Korolev
