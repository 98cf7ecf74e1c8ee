import Korolev.Kernel.Numbers
import Korolev.Libc.Itoa

set_option relaxedAutoImplicit false
set_option autoImplicit false

/-!
# `putn` in place of `itoa`

`putn` of `kernel/text.c` once called `itoa` and put its string; a comment says that `itoa` seems to
be buggy. Now it has a routine for base 2, one for base 16, and one for all other bases, which shows
the number in base 10. They take the number as unsigned.

`putn2` looks at the bits from the highest one on. Its counter starts from 31 and is decremented
before it is used, so that the highest bit looked at is bit 30. `putn16`, which starts from 8, looks
at all eight nibbles.

## Main definitions

* `Korolev.putn2`, `Korolev.putn` — the characters put for a number.

## Main results

* `Korolev.putn2_eq_numeral_iff` — `putn2` puts the numeral iff bit 31 is not set.
* `Korolev.putn_eq_itoa_iff` — when `putn` puts the string that `itoa` writes.
-/

namespace Korolev

open Bytes CStr Numeral

/-- The characters the loop of `putn2` puts, with `o` the counter before `o--`. -/
def putn2Loop (n : LONG) : (o : ℕ) → (s : LONG) → List BYTE
  | 0, _ => []
  | o + 1, s =>
    if (n >>> UInt32.ofNat o) &&& 1 ≠ 0 then 0x31 :: putn2Loop n o 1
    else (if s ≠ 0 then [0x30] else []) ++ putn2Loop n o s

/-- The characters `putn2(n)` puts. -/
def putn2 (n : LONG) : List BYTE := if n = 0 then [0x30] else putn2Loop n 31 0

/-- The characters `putn(n, base)` puts. -/
def putn (n base : Int32) : List BYTE :=
  if base = 2 then putn2 n.toUInt32
  else if base = 16 then putn16 n.toUInt32
  else putn10 n.toUInt32

/-! ## Binary numbers -/

section Putn2

variable (n : LONG)

/-- The digit that an iteration of `putn2` looks at. -/
lemma toNat_bit {o : ℕ} (ho : o < 32) :
    ((n >>> UInt32.ofNat o) &&& 1).toNat = n.toNat / 2 ^ o % 2 := by
  have hshift : (UInt32.ofNat o).toNat % 32 = o := by
    rw [toNat_ofNat_of_lt (by omega), Nat.mod_eq_of_lt ho]
  have hmask : n.toNat / 2 ^ o &&& (1 : LONG).toNat = n.toNat / 2 ^ o % 2 :=
    Nat.and_two_pow_sub_one_eq_mod _ 1
  rw [UInt32.toNat_and, UInt32.toNat_shiftRight, hshift, Nat.shiftRight_eq_div_pow, hmask]

/-- The loop of `putn2` puts the digits by place, without the zeros in front. -/
lemma putn2Loop_eq (s : LONG) : ∀ o ≤ 32, putn2Loop n o s = placeDigits 2 n.toNat o (s ≠ 0) := by
  intro o
  induction o generalizing s with
  | zero =>
    intro _
    rfl
  | succ o ih =>
    intro ho
    have hbit : (n >>> UInt32.ofNat o) &&& 1 ≠ 0 ↔ n.toNat / 2 ^ o % 2 ≠ 0 := by
      rw [← toNat_ne_zero, toNat_bit n (by omega)]
    rw [putn2Loop, placeDigits, ih _ (by omega), ih _ (by omega)]
    rcases Nat.mod_two_eq_zero_or_one (n.toNat / 2 ^ o) with hd | hd
    · rw [if_neg (mt hbit.mp fun h => h hd)]
      by_cases hs : s = 0
      · simp [hd, hs]
      · simp [hd, hs, digit]
    · rw [if_pos (hbit.mpr (by omega)), hd]
      rfl

/-- There are places for 31 digits. -/
lemma putn2_eq_numeral_iff : putn2 n = numeral 2 n.toNat ↔ n.toNat < 2 ^ 31 := by
  rw [putn2]
  by_cases hn : n = 0
  · rw [if_pos hn, hn]
    simp [numeral, lowDigits]
    rfl
  · rw [if_neg hn, putn2Loop_eq n 0 31 (by omega)]
    exact placeDigits_eq_numeral_iff le_rfl (by omega) (toNat_ne_zero.mpr hn) 31

end Putn2

/-! ## The string of `itoa` -/

/-- The sign of an `int`, as the bit it becomes in an `unsigned`. -/
lemma toNat_lt_iff_nonneg (n : Int32) : n.toUInt32.toNat < 2 ^ 31 ↔ 0 ≤ n := by
  have hcast := natCast_toUInt32 n
  have hlow := n.le_toInt
  have hhigh := n.toInt_lt
  rw [Int32.le_iff_toInt_le, Int32.toInt_zero]
  omega

/-- **`putn` in place of `itoa`.** For every number, and base 2, base 16, or base 10 if the number
is not negative: `itoa` writes a string, and `putn` puts just its characters iff the base is not 2
or the number is not negative.

**Proof sketch.** All three routines show the numeral of the number, taken as unsigned
(`putn16_eq`, `putn10_eq`); `putn2` does if bit 31 is not set (`putn2_eq_numeral_iff`). The string
of `itoa` is that numeral. -/
theorem putn_eq_itoa_iff (mem tmp : ℕ → BYTE) (n : Int32) (s : ℕ) (base : Int32)
    (hbase : base = 2 ∨ base = 16 ∨ base = 10 ∧ 0 ≤ n) :
    ∃ mem' str, itoa mem tmp n s base = .ok (mem', s) ∧ IsString (fun k => mem' (s + k)) str ∧
      (putn n base = str ↔ (base = 2 → 0 ≤ n)) := by
  have hsize : 2 ≤ base.toUInt32.toNat ∧ base.toUInt32.toNat ≤ 36 := by
    rcases hbase with rfl | rfl | ⟨rfl, -⟩ <;> decide
  have hsign : ¬(base = 10 ∧ n < 0) := by
    rintro ⟨rfl, hneg⟩
    rcases hbase with h | h | ⟨-, h⟩
    · exact absurd h (by decide)
    · exact absurd h (by decide)
    · rw [Int32.le_iff_toInt_le] at h
      rw [Int32.lt_iff_toInt_lt] at hneg
      omega
  refine ⟨_, itoaString n base, itoa_eq mem tmp n s hsize.1 hsize.2,
    isString_itoaString mem n s hsize.1 hsize.2, ?_⟩
  rw [itoaString_unsigned hsign]
  rcases hbase with rfl | rfl | ⟨rfl, -⟩
  · have hb : (2 : Int32).toUInt32.toNat = 2 := by decide
    rw [putn, if_pos rfl, hb, putn2_eq_numeral_iff, toNat_lt_iff_nonneg]
    simp
  · have hb : (16 : Int32).toUInt32.toNat = 16 := by decide
    rw [putn, if_neg (by decide), if_pos rfl, hb]
    exact iff_of_true (putn16_eq _) fun h => absurd h (by decide)
  · have hb : (10 : Int32).toUInt32.toNat = 10 := by decide
    rw [putn, if_neg (by decide), if_neg (by decide), hb]
    exact iff_of_true (putn10_eq _) fun h => absurd h (by decide)

/-- A negative number in base 16. -/
theorem putn_eq_itoa_hex : ∃ mem' str,
    itoa (fun _ => 0) (fun _ => 0) (-1) 0x1000 16 = .ok (mem', 0x1000) ∧
      IsString (fun k => mem' (0x1000 + k)) str ∧ putn (-1) 16 = str := by
  obtain ⟨mem', str, hitoa, hstr, hiff⟩ :=
    putn_eq_itoa_iff (fun _ => 0) (fun _ => 0) (-1) 0x1000 16 (.inr (.inl rfl))
  exact ⟨mem', str, hitoa, hstr, hiff.mpr fun h => absurd h (by decide)⟩

/-- The least number in base 2, of which `putn` puts nothing. -/
theorem putn_ne_itoa_min : putn (-2147483648) 2 = [] ∧ ∃ mem',
    itoa (fun _ => 0) (fun _ => 0) (-2147483648) 0x1000 2 = .ok (mem', 0x1000) ∧
      IsString (fun k => mem' (0x1000 + k)) (0x31 :: List.replicate 31 0x30) ∧
      ¬IsString (fun k => mem' (0x1000 + k)) (putn (-2147483648) 2) := by
  have hnone : putn (-2147483648) 2 = [] := by decide
  have heq : itoaString (-2147483648) 2 = 0x31 :: List.replicate 31 0x30 := by
    rw [itoaString_unsigned (by decide)]
    symm
    apply (isNumeral_iff (by decide) (by decide)).mp
    refine ⟨by decide, fun c hc => ?_, by decide, by decide⟩
    rcases List.mem_cons.mp hc with hone | hzero
    · exact ⟨1, by decide, hone⟩
    · exact ⟨0, by decide, List.eq_of_mem_replicate hzero⟩
  have h2 : 2 ≤ (2 : Int32).toUInt32.toNat := by decide
  have h36 : (2 : Int32).toUInt32.toNat ≤ 36 := by decide
  have hitoa := itoa_eq (fun _ => 0) (fun _ => 0) (-2147483648) 0x1000 h2 h36
  have hstr := isString_itoaString (fun _ => 0) (-2147483648) 0x1000 h2 h36
  rw [heq] at hitoa hstr
  refine ⟨hnone, _, hitoa, hstr, fun hempty => ?_⟩
  rw [hnone] at hempty
  exact absurd (hstr.unique hempty) (by simp)

end Korolev
