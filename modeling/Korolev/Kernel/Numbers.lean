import Korolev.Kernel.Text
import Korolev.Library.Bytes
import Korolev.Library.Numeral

set_option relaxedAutoImplicit false
set_option autoImplicit false

/-!
# Numbers on the console

`putn16` shows a number by looking at its nibbles from the highest one on; a flag says that a digit
was put, and before that zeros are left out. `putn10` divides by ten and stores the digits from
position 30 of a local array downwards, puts a terminator behind them and passes the string to
`puts`. Both have a case of its own for `0`.

`putn10` of `Korolev.Kernel.Text` has the string only. Here is the function with its array, for
what the array held before and for the positions that are used.

## Main definitions

* `Korolev.Buf` — a local array, with the positions used.
* `Korolev.putn10Buf` — `putn10` with its array.

## Main results

* `Korolev.isNumeral_putn16`, `Korolev.isNumeral_putn10` — what is put is the numeral.
* `Korolev.putn10Buf_spec` — the function with its array puts the same characters.
* `Korolev.console_numerals` — both, with the positions used.
-/

namespace Korolev

open Bytes Numeral

/-! ## Hexadecimal numbers -/

section Putn16

variable (n : LONG)

/-- The characters of the map are the digits. -/
lemma hexMap_eq_digit {d : ℕ} (hd : d < 16) : hexMap.getD d 0 = digit d := by
  revert d
  decide

/-- The digit that an iteration of `putn16` looks at. -/
lemma toNat_nibble {o : ℕ} (ho : o < 8) :
    ((n >>> UInt32.ofNat (o * 4)) &&& 0xf).toNat = n.toNat / 16 ^ o % 16 := by
  have hshift : (UInt32.ofNat (o * 4)).toNat % 32 = o * 4 := by
    rw [toNat_ofNat_of_lt (by omega)]
    omega
  have hpow : 2 ^ (o * 4) = 16 ^ o := by
    rw [Nat.mul_comm, Nat.pow_mul]
  have hmask : n.toNat / 16 ^ o &&& (0xf : LONG).toNat = n.toNat / 16 ^ o % 16 :=
    Nat.and_two_pow_sub_one_eq_mod _ 4
  rw [UInt32.toNat_and, UInt32.toNat_shiftRight, hshift, Nat.shiftRight_eq_div_pow, hpow, hmask]

/-- The loop of `putn16` puts the digits by place, without the zeros in front. -/
lemma putn16Loop_eq (s : LONG) : ∀ o ≤ 8, putn16Loop n o s = placeDigits 16 n.toNat o (s ≠ 0) := by
  intro o
  induction o generalizing s with
  | zero =>
    intro _
    rfl
  | succ o ih =>
    intro ho
    have hlt : n.toNat / 16 ^ o % 16 < 16 := Nat.mod_lt _ (by omega)
    have hzero := digit_eq_zero_iff (show n.toNat / 16 ^ o % 16 < 36 by omega)
    have h0 : digit 0 = 0x30 := rfl
    rw [putn16Loop, toNat_nibble n (by omega), hexMap_eq_digit hlt, placeDigits, ih _ (by omega),
      ih _ (by omega)]
    by_cases hd : n.toNat / 16 ^ o % 16 = 0
    · by_cases hs : s = 0
      · simp [hd, hs, h0]
      · simp [hd, hs, h0]
    · simp [hzero, hd]

/-- There is a place for every digit. -/
lemma putn16_eq : putn16 n = numeral 16 n.toNat := by
  rw [putn16]
  by_cases hn : n = 0
  · rw [if_pos hn, hn]
    rfl
  · rw [if_neg hn, putn16Loop_eq n 0 8 le_rfl]
    apply (placeDigits_eq_numeral_iff (by omega) (by omega) (toNat_ne_zero.mpr hn) 8).mpr
    exact n.toNat_lt

/-- **`putn16` puts the hexadecimal numeral.** -/
lemma isNumeral_putn16 : IsNumeral 16 n.toNat (putn16 n) := by
  rw [putn16_eq]
  exact isNumeral_numeral (by omega) (by omega) _

end Putn16

/-! ## Decimal numbers -/

/-- A digit by a division, as a character. -/
lemma decimal_digit (n : LONG) : 0x30 + (n % 10).toUInt8 = digit (n.toNat % 10) := by
  have hlt : n.toNat % 10 < 10 := Nat.mod_lt _ (by omega)
  rw [digit, if_pos hlt, ← UInt8.toNat_inj, UInt8.toNat_add, UInt32.toNat_toUInt8, UInt32.toNat_mod,
    UInt8.toNat_ofNat']
  change (48 + n.toNat % 10 % 256) % 256 = (48 + n.toNat % 10) % 256
  omega

/-- `(n - a) / 10` is the quotient. -/
lemma toNat_quotient (n : LONG) : ((n - n % 10) / 10).toNat = n.toNat / 10 := by
  have hle : n % 10 ≤ n := by
    rw [UInt32.le_iff_toNat_le, UInt32.toNat_mod]
    exact Nat.mod_le _ _
  rw [UInt32.toNat_div, UInt32.toNat_sub_of_le _ _ hle, UInt32.toNat_mod]
  change (n.toNat - n.toNat % 10) / 10 = n.toNat / 10
  omega

lemma quotient_eq_zero_iff (n : LONG) : (n - n % 10) / 10 = 0 ↔ n.toNat / 10 = 0 := by
  rw [← UInt32.toNat_inj, toNat_quotient]
  rfl

/-- The string that the loop of `putn10` builds. -/
lemma putn10Loop_eq : ∀ (i : ℕ) (n : LONG) (buf : List BYTE), (lowDigits 10 n.toNat).length ≤ i →
    putn10Loop i n buf = numeral 10 n.toNat ++ buf
  | 0, n, buf, h => by
    rw [lowDigits_eq (by omega)] at h
    exact absurd h (by simp)
  | i + 1, n, buf, h => by
    rw [putn10Loop, numeral, lowDigits_eq (by omega)]
    rw [lowDigits_eq (by omega), List.length_cons] at h
    rw [decimal_digit]
    by_cases hlast : n.toNat / 10 = 0
    · rw [if_pos ((quotient_eq_zero_iff n).mpr hlast), if_pos hlast]
      rfl
    · rw [if_neg (mt (quotient_eq_zero_iff n).mp hlast), if_neg hlast]
      rw [if_neg hlast, ← toNat_quotient] at h
      rw [putn10Loop_eq i _ _ (by omega), numeral, toNat_quotient, List.map_cons, List.reverse_cons,
        List.append_assoc]
      rfl

/-- A number has at most ten decimal digits. -/
lemma length_lowDigits_ten (n : LONG) : (lowDigits 10 n.toNat).length ≤ 10 := by
  have hn := n.toNat_lt
  exact length_lowDigits_le (by omega) (by omega) (by omega)

lemma putn10_eq (n : LONG) : putn10 n = numeral 10 n.toNat := by
  have hlen := length_lowDigits_ten n
  rw [putn10]
  by_cases hn : n = 0
  · rw [if_pos hn, hn]
    rfl
  · rw [if_neg hn, putn10Loop_eq 31 n [] (by omega), List.append_nil]

/-- **`putn10` puts the decimal numeral.** -/
lemma isNumeral_putn10 (n : LONG) : IsNumeral 10 n.toNat (putn10 n) := by
  rw [putn10_eq]
  exact isNumeral_numeral (by omega) (by omega) _

/-! ## The array of `putn10` -/

/-- A local array, and the positions of it that were read or stored to. -/
structure Buf where
  cell : ℕ → BYTE
  touched : List ℕ

/-- `buf[i] = v` -/
def Buf.store (buf : Buf) (i : ℕ) (v : BYTE) : Buf where
  cell := Function.update buf.cell i v
  touched := i :: buf.touched

/-- A read of `buf[i]`. -/
def Buf.read (buf : Buf) (i : ℕ) : BYTE × Buf :=
  (buf.cell i, { buf with touched := i :: buf.touched })

/-- The loop of `putn10`, with `i` the counter before `i--`: the counter behind the loop and the
array. If the loop does not end by its `break`, the counter wraps. -/
def putn10Fill : (i : ℕ) → (n : LONG) → Buf → ℕ × Buf
  | 0, _, buf => (0xffffffff, buf)
  | i + 1, n, buf =>
    let a := n % 10
    let buf := buf.store i (0x30 + a.toUInt8)
    let n := (n - a) / 10
    if n = 0 then (i, buf) else putn10Fill i n buf

/-- `puts(buf + i)`, with `room` positions of the array from `i` on: the characters put, or `none`
if it reads behind the array. -/
def putsBuf : (room i : ℕ) → Buf → Option (List BYTE × Buf)
  | 0, _, _ => none
  | room + 1, i, buf =>
    let r := buf.read i
    if r.1 = 0 then some ([], r.2)
    else (putsBuf room (i + 1) r.2).map fun q => (r.1 :: q.1, q.2)

/-- `putn10(n)` with its array, which is not initialised. -/
def putn10Buf (buf : Buf) (n : LONG) : Option (List BYTE × Buf) :=
  if n = 0 then some ([0x30], buf)
  else
    let r := putn10Fill 31 n buf
    let buf := r.2.store 31 0
    putsBuf (33 - r.1) r.1 buf

@[simp] lemma Buf.store_self (buf : Buf) (i : ℕ) (v : BYTE) : (buf.store i v).cell i = v :=
  Function.update_self _ _ _

lemma Buf.store_of_ne (buf : Buf) {i j : ℕ} (v : BYTE) (h : j ≠ i) :
    (buf.store i v).cell j = buf.cell j :=
  Function.update_of_ne h _ _

/-- All positions used are below `m`. -/
def Buf.Within (buf : Buf) (m : ℕ) : Prop := ∀ k ∈ buf.touched, k < m

lemma Buf.Within.store {buf : Buf} {m i : ℕ} (h : buf.Within m) (hi : i < m) (v : BYTE) :
    (buf.store i v).Within m :=
  List.forall_mem_cons.mpr ⟨hi, h⟩

lemma Buf.Within.read {buf : Buf} {m i : ℕ} (h : buf.Within m) (hi : i < m) :
    (buf.read i).2.Within m :=
  List.forall_mem_cons.mpr ⟨hi, h⟩

/-- **The loop of `putn10`** stores the numeral right before position `i`, and stores nowhere
else. -/
lemma putn10Fill_spec {m : ℕ} : ∀ (i : ℕ) (n : LONG) (buf : Buf),
    (lowDigits 10 n.toNat).length ≤ i → buf.Within m → i ≤ m →
    ∃ j buf', putn10Fill i n buf = (j, buf') ∧ j + (lowDigits 10 n.toNat).length = i ∧
      toList buf'.cell j (lowDigits 10 n.toNat).length = numeral 10 n.toNat ∧
      (∀ k, i ≤ k → buf'.cell k = buf.cell k) ∧ buf'.Within m
  | 0, n, buf, h, _, _ => by
    rw [lowDigits_eq (by omega)] at h
    exact absurd h (by simp)
  | i + 1, n, buf, h, hm, hi => by
    have hstep := lowDigits_eq (show 2 ≤ 10 by omega) n.toNat
    rw [putn10Fill, decimal_digit]
    by_cases hlast : n.toNat / 10 = 0
    · rw [if_pos hlast] at hstep
      rw [if_pos ((quotient_eq_zero_iff n).mpr hlast), numeral, hstep]
      refine ⟨i, _, rfl, rfl, ?_, fun k hk => buf.store_of_ne _ (by omega), hm.store (by omega) _⟩
      rw [List.length_singleton, toList_succ, Buf.store_self]
      rfl
    · rw [if_neg hlast, ← toNat_quotient] at hstep
      have hlen := congrArg List.length hstep
      rw [List.length_cons] at hlen
      rw [if_neg (mt (quotient_eq_zero_iff n).mp hlast)]
      obtain ⟨j, buf', hfill, hj, hstr, hkeep, hm'⟩ := putn10Fill_spec i ((n - n % 10) / 10)
        (buf.store i (digit (n.toNat % 10))) (by omega) (hm.store (by omega) _) (by omega)
      refine ⟨j, buf', hfill, by omega, ?_, fun k hk => ?_, hm'⟩
      · rw [hlen, toList_succ_last, hstr, hj, hkeep i le_rfl, Buf.store_self, numeral, numeral,
          hstep, List.map_cons, List.reverse_cons]
      · rw [hkeep k (by omega), buf.store_of_ne _ (by omega)]

/-- `puts` puts what stands before the first terminator, and reads up to it. -/
lemma putsBuf_spec {m : ℕ} : ∀ (len room i : ℕ) (buf : Buf), len < room →
    (∀ c ∈ toList buf.cell i len, c ≠ 0) → buf.cell (i + len) = 0 → buf.Within m → i + len < m →
    ∃ buf', putsBuf room i buf = some (toList buf.cell i len, buf') ∧ buf'.Within m
  | len, 0, _, _, h, _, _, _, _ => absurd h (Nat.not_lt_zero len)
  | 0, room + 1, i, buf, _, _, hend, hm, hi => by
    refine ⟨(buf.read i).2, ?_, hm.read hi⟩
    rw [putsBuf]
    exact if_pos hend
  | len + 1, room + 1, i, buf, h, hne, hend, hm, hi => by
    rw [toList_succ] at hne ⊢
    obtain ⟨buf', hputs, hm'⟩ := putsBuf_spec len room (i + 1) (buf.read i).2 (by omega)
      (fun c hc => hne c (List.mem_cons_of_mem _ hc)) (by rw [Nat.add_right_comm]; exact hend)
      (hm.read (by omega)) (by omega)
    refine ⟨buf', ?_, hm'⟩
    rw [putsBuf, if_neg (show (buf.read i).1 ≠ 0 from hne _ List.mem_cons_self), hputs]
    rfl

/-- The function with its array puts the same characters, and uses positions up to 31. -/
lemma putn10Buf_spec (cell : ℕ → BYTE) (n : LONG) :
    ∃ buf', putn10Buf ⟨cell, []⟩ n = some (putn10 n, buf') ∧ buf'.Within 32 := by
  have hempty : (Buf.mk cell []).Within 32 := fun k hk => nomatch hk
  by_cases hn : n = 0
  · rw [putn10Buf, putn10, if_pos hn, if_pos hn]
    exact ⟨_, rfl, hempty⟩
  · have hlen := length_lowDigits_ten n
    obtain ⟨j, buf, hfill, hj, hstr, -, hm⟩ :=
      putn10Fill_spec 31 n ⟨cell, []⟩ (by omega) hempty (by omega)
    -- the terminator is behind the digits
    have hstr' : toList (buf.store 31 0).cell j (lowDigits 10 n.toNat).length = putn10 n := by
      rw [putn10_eq, ← hstr]
      exact toList_congr fun k hk => buf.store_of_ne _ (by omega)
    have hne : ∀ c ∈ toList (buf.store 31 0).cell j (lowDigits 10 n.toNat).length, c ≠ 0 := by
      intro c hc
      rw [hstr'] at hc
      obtain ⟨d, hd, rfl⟩ := (isNumeral_putn10 n).digits c hc
      exact digit_ne_nul (by omega)
    rw [putn10Buf, if_neg hn, hfill, ← hstr']
    exact putsBuf_spec _ (33 - j) j (buf.store 31 0) (by omega) hne (by rw [hj, Buf.store_self])
      (hm.store (by omega) 0) (by omega)

/-- **Numbers on the console.** For every number: `putn10` and `putn16` put its decimal and its
hexadecimal numeral, which are the only ones, and whatever the array of `putn10` held before, it is
used at positions `0` to `31` only. -/
theorem console_numerals (n : LONG) (cell : ℕ → BYTE) :
    (∃ buf', putn10Buf ⟨cell, []⟩ n = some (putn10 n, buf') ∧ ∀ k ∈ buf'.touched, k ≤ 31) ∧
    (∀ s, IsNumeral 10 n.toNat s ↔ s = putn10 n) ∧ ∀ s, IsNumeral 16 n.toNat s ↔ s = putn16 n := by
  obtain ⟨buf', hputs, hm⟩ := putn10Buf_spec cell n
  refine ⟨⟨buf', hputs, fun k hk => Nat.le_of_lt_succ (hm k hk)⟩, fun s => ?_, fun s => ?_⟩
  · rw [putn10_eq]
    exact isNumeral_iff (by omega) (by omega)
  · rw [putn16_eq]
    exact isNumeral_iff (by omega) (by omega)

end Korolev
