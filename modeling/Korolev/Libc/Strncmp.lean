import Korolev.Libc.String
import Korolev.Library.Slots
import Mathlib.Data.Nat.Find

set_option relaxedAutoImplicit false
set_option autoImplicit false

/-!
# When the kernel's `strncmp` is right

`strncmp` compares two strings byte by byte until they differ, one of them ends, or `len` bytes
were looked at. The kernel's version compares words first, and it looks for a terminator only in
words that differ. It is wrong in three ways:

* A terminator in a word that is equal in both strings is not seen, and the bytes behind it are
  compared as well.
* With a bound below `4` only the last loop runs, which does not look for terminators.
* With the bound `4` no byte is compared: `offset` was computed before `fast` is reset to `0`.

What decides is the first position at which the strings differ.

## Main definitions

* `Korolev.strncmpRef` — the definition of the C standard, for the kernel's return values.
* `Korolev.FirstDiff` — the first position at which the strings differ.
* `Korolev.SeesEnd` — the bounds and strings with which no end is missed.

## Main results

* `Korolev.strncmp_of_firstDiff` — what the kernel's `strncmp` returns.
* `Korolev.strncmp_congr` — it depends on the bytes before `len` only.
* `Korolev.strncmp_eq_ref_iff` — when that is the right value.
-/

namespace Korolev

open Bytes

/-- `strncmp` as the C standard has it: the difference of the bytes at the first position where
they differ or both are `0`. -/
def strncmpRef (ptr0 ptr1 : ℕ → BYTE) (len : ℕ) : ℤ :=
  match (List.range len).find? fun p => ptr0 p ≠ ptr1 p ∨ ptr0 p = 0 ∧ ptr1 p = 0 with
  | some p => byteDiff (ptr0 p) (ptr1 p)
  | none => 0

/-- The strings differ at `d`, and nowhere before. -/
def FirstDiff (ptr0 ptr1 : ℕ → BYTE) (d : ℕ) : Prop :=
  ptr0 d ≠ ptr1 d ∧ ∀ j < d, ptr0 j = ptr1 j

instance (ptr0 ptr1 : ℕ → BYTE) (d : ℕ) : Decidable (FirstDiff ptr0 ptr1 d) :=
  inferInstanceAs (Decidable (_ ∧ _))

/-- If the strings first differ at `d < len` and have not ended before, the bound is not `4`; if
they have, the bound is `4`, or it is larger and they end in the word of `d`, before `d`. -/
def SeesEnd (ptr0 ptr1 : ℕ → BYTE) (len : ℕ) : Prop :=
  ∀ d < len, FirstDiff ptr0 ptr1 d →
    ((∀ j < d, ptr0 j ≠ 0) → len ≠ 4) ∧
    ((∃ j < d, ptr0 j = 0) → len = 4 ∨ 4 < len ∧ ∃ j < d, d / 4 * 4 ≤ j ∧ ptr0 j = 0)

section Strncmp

variable {ptr0 ptr1 : ℕ → BYTE} {len d : ℕ}

/-- Strings either agree on `len` bytes or have a first difference. -/
lemma forall_eq_or_firstDiff (ptr0 ptr1 : ℕ → BYTE) (len : ℕ) :
    (∀ j < len, ptr0 j = ptr1 j) ∨ ∃ d < len, FirstDiff ptr0 ptr1 d := by
  obtain ⟨d, hd, hne, hbefore, -⟩ | ⟨hall, -⟩ :=
    Slots.find?_range_cases len fun j => ptr0 j ≠ ptr1 j
  · exact .inr ⟨d, hd, hne, fun j hj => not_not.mp (hbefore j hj)⟩
  · exact .inl fun j hj => not_not.mp (hall j hj)

/-! ## The reference -/

/-- What the reference returns, by its search. -/
lemma strncmpRef_cases (ptr0 ptr1 : ℕ → BYTE) (len : ℕ) :
    (∃ p < len, (ptr0 p ≠ ptr1 p ∨ ptr0 p = 0 ∧ ptr1 p = 0) ∧
      (∀ j < p, ptr0 j = ptr1 j ∧ ptr0 j ≠ 0) ∧
      strncmpRef ptr0 ptr1 len = byteDiff (ptr0 p) (ptr1 p)) ∨
    ((∀ j < len, ptr0 j = ptr1 j ∧ ptr0 j ≠ 0) ∧ strncmpRef ptr0 ptr1 len = 0) := by
  have hgo : ∀ j, ¬(ptr0 j ≠ ptr1 j ∨ ptr0 j = 0 ∧ ptr1 j = 0) → ptr0 j = ptr1 j ∧ ptr0 j ≠ 0 := by
    intro j h
    have heq : ptr0 j = ptr1 j := by
      by_contra hne
      exact h (.inl hne)
    exact ⟨heq, fun h0 => h (.inr ⟨h0, heq ▸ h0⟩)⟩
  rw [strncmpRef]
  obtain ⟨p, hp, hstop, hbefore, hfind⟩ | ⟨hall, hfind⟩ :=
    Slots.find?_range_cases len fun j => ptr0 j ≠ ptr1 j ∨ ptr0 j = 0 ∧ ptr1 j = 0
  · rw [hfind]
    exact .inl ⟨p, hp, hstop, fun j hj => hgo j (hbefore j hj), rfl⟩
  · rw [hfind]
    exact .inr ⟨fun j hj => hgo j (hall j hj), rfl⟩

/-- The reference on strings that agree. -/
lemma strncmpRef_of_forall (h : ∀ j < len, ptr0 j = ptr1 j) : strncmpRef ptr0 ptr1 len = 0 := by
  obtain ⟨p, hp, -, -, hr⟩ | ⟨-, hr⟩ := strncmpRef_cases ptr0 ptr1 len
  · rw [hr, byteDiff_eq_zero]
    exact h p hp
  · exact hr

/-- The reference on strings that differ: the difference, unless the strings end before. -/
lemma strncmpRef_of_firstDiff (hd : d < len) (h : FirstDiff ptr0 ptr1 d) :
    strncmpRef ptr0 ptr1 len =
      if ∃ j < d, ptr0 j = 0 then 0 else byteDiff (ptr0 d) (ptr1 d) := by
  obtain ⟨p, hp, hstop, hbefore, hr⟩ | ⟨hall, -⟩ := strncmpRef_cases ptr0 ptr1 len
  · rw [hr]
    rcases Nat.lt_trichotomy p d with hlt | rfl | hlt
    · -- the strings end at `p`
      have heq := h.2 p hlt
      obtain ⟨h0, -⟩ := hstop.resolve_left fun hne => hne heq
      rw [if_pos ⟨p, hlt, h0⟩, byteDiff_eq_zero]
      exact heq
    · rw [if_neg]
      rintro ⟨j, hj, h0⟩
      exact (hbefore j hj).2 h0
    · exact absurd (hbefore d hlt).1 h.1
  · exact absurd (hall d hd).1 h.1

/-- The reference depends on no byte behind a common terminator, or behind `len`. -/
lemma strncmpRef_congr {ptr0' ptr1' : ℕ → BYTE}
    (h : ∀ p < len, (∀ j < p, ¬(ptr0 j = 0 ∧ ptr1 j = 0)) → ptr0' p = ptr0 p ∧ ptr1' p = ptr1 p) :
    strncmpRef ptr0' ptr1' len = strncmpRef ptr0 ptr1 len := by
  -- as long as the strings run on in step, the bytes are the same
  have hsame : ∀ p < len, (∀ j < p, ptr0 j = ptr1 j ∧ ptr0 j ≠ 0) →
      ptr0' p = ptr0 p ∧ ptr1' p = ptr1 p :=
    fun p hp hrun => h p hp fun j hj hz => (hrun j hj).2 hz.1
  obtain ⟨p, hp, hstop, hbefore, hr⟩ | ⟨hall, hr⟩ := strncmpRef_cases ptr0 ptr1 len
  · have hp' := hsame p hp hbefore
    obtain ⟨q, hq, hstop', hbefore', hr'⟩ | ⟨hall', hr'⟩ := strncmpRef_cases ptr0' ptr1' len
    · rcases Nat.lt_trichotomy q p with hlt | rfl | hlt
      · have hq' := hsame q hq fun j hj => hbefore j (hj.trans hlt)
        have hgo := hbefore q hlt
        rw [hq'.1, hq'.2] at hstop'
        obtain hne | ⟨h0, -⟩ := hstop'
        · exact absurd hgo.1 hne
        · exact absurd h0 hgo.2
      · rw [hr, hr', hp'.1, hp'.2]
      · have hgo := hbefore' p hlt
        rw [hp'.1, hp'.2] at hgo
        obtain hne | ⟨h0, -⟩ := hstop
        · exact absurd hgo.1 hne
        · exact absurd h0 hgo.2
    · have hgo := hall' p hp
      rw [hp'.1, hp'.2] at hgo
      rw [hr, hr', byteDiff_eq_zero.mpr hgo.1]
  · rw [hr]
    refine strncmpRef_of_forall fun j hj => ?_
    obtain ⟨h0, h1⟩ := hsame j hj fun i hi => hall i (hi.trans hj)
    rw [h0, h1]
    exact (hall j hj).1

/-! ## The kernel's version -/

/-- The byte scan, started where the strings have neither differed nor ended. -/
lemma strncmpScan_of_firstDiff : ∀ (n pos : ℕ), pos ≤ d → d < pos + n →
    (∀ j, pos ≤ j → j < d → ptr0 j = ptr1 j ∧ ptr0 j ≠ 0) → ptr0 d ≠ ptr1 d →
    strncmpScan ptr0 ptr1 n pos = some (byteDiff (ptr0 d) (ptr1 d))
  | 0, pos, _, _, _, _ => by omega
  | n + 1, pos, hle, hlt, hpre, hne => by
    rw [strncmpScan]
    obtain rfl | hpos := eq_or_lt_of_le hle
    · exact if_pos (.inl fun h => hne (UInt8.xor_eq_zero_iff.mp h))
    · obtain ⟨heq, hnz⟩ := hpre pos le_rfl hpos
      have hgo : ¬((ptr0 pos ^^^ ptr1 pos) ≠ 0 ∨ ptr0 pos = 0 ∨ ptr1 pos = 0) := by
        rintro (h | h | h)
        · exact h (UInt8.xor_eq_zero_iff.mpr heq)
        · exact hnz h
        · exact hnz (heq.trans h)
      rw [if_neg hgo]
      exact strncmpScan_of_firstDiff n (pos + 1) hpos (by omega)
        (fun j hj hjd => hpre j (by omega) hjd) hne

/-- The byte scan of the word of the first difference: it stops there, or at a terminator before
it in that word. -/
lemma strncmpScan_word (hd : d < len) (h : FirstDiff ptr0 ptr1 d) :
    strncmpScan ptr0 ptr1 (len - d / 4 * 4) (d / 4 * 4) =
      some (if ∃ j < d, d / 4 * 4 ≤ j ∧ ptr0 j = 0 then 0 else byteDiff (ptr0 d) (ptr1 d)) := by
  by_cases hz : ∃ j < d, d / 4 * 4 ≤ j ∧ ptr0 j = 0
  · -- the first terminator of the word
    obtain ⟨hj, hle, h0⟩ := Nat.find_spec hz
    rw [if_pos hz]
    refine strncmpScan_of_terminator h0 ((h.2 _ hj).symm.trans h0) _ _ hle (by omega) ?_
    intro i hi hlt
    exact ⟨h.2 i (by omega), fun hi0 => Nat.find_min hz hlt ⟨by omega, hi, hi0⟩⟩
  · rw [if_neg hz]
    refine strncmpScan_of_firstDiff _ _ (by omega) (by omega) (fun j hj hjd => ?_) h.1
    exact ⟨h.2 j hjd, fun h0 => hz ⟨j, hjd, hj, h0⟩⟩

/-- The last loop finds the first difference. -/
lemma strncmpTail_of_firstDiff : ∀ (n offset : ℕ), offset ≤ d → d < offset + n →
    FirstDiff ptr0 ptr1 d → strncmpTail ptr0 ptr1 n offset = byteDiff (ptr0 d) (ptr1 d)
  | 0, offset, _, _, _ => by omega
  | n + 1, offset, hle, hlt, h => by
    rw [strncmpTail]
    obtain rfl | hpos := eq_or_lt_of_le hle
    · exact if_pos fun hx => h.1 (UInt8.xor_eq_zero_iff.mp hx)
    · rw [if_neg (not_not.mpr (UInt8.xor_eq_zero_iff.mpr (h.2 offset hpos)))]
      exact strncmpTail_of_firstDiff n (offset + 1) hpos (by omega) h

/-- **What the kernel's `strncmp` returns** for strings that first differ at `d < len`. -/
lemma strncmp_of_firstDiff (hd : d < len) (h : FirstDiff ptr0 ptr1 d) :
    strncmp ptr0 ptr1 len =
      if len = 4 ∨ 4 < len ∧ ∃ j < d, d / 4 * 4 ≤ j ∧ ptr0 j = 0 then 0
      else byteDiff (ptr0 d) (ptr1 d) := by
  rcases Nat.lt_trichotomy len 4 with hlen | rfl | hlen
  · have hzero : len / 4 = 0 := by omega
    rw [if_neg (by omega), strncmp]
    simp only [hzero, if_pos hlen.le, strncmpFast]
    exact strncmpTail_of_firstDiff _ _ (by omega) (by omega) h
  · rw [if_pos (.inl rfl)]
    rfl
  · -- the words before that of `d` are skipped, and that one differs
    have hword : le32 ptr0 (d / 4 * 4) ≠ le32 ptr1 (d / 4 * 4) := by
      intro heq
      have hbyte := le32_eq_iff.mp heq (d - d / 4 * 4) (by omega)
      rw [Nat.add_sub_of_le (by omega)] at hbyte
      exact h.1 hbyte
    have hidx : len / 4 + 1 = d / 4 + (len / 4 - d / 4 + 1) := by omega
    have hfast : strncmpFast ptr0 ptr1 len (len / 4 + 1) 0 =
        some (if ∃ j < d, d / 4 * 4 ≤ j ∧ ptr0 j = 0 then 0 else byteDiff (ptr0 d) (ptr1 d)) := by
      rw [hidx, strncmpFast_skip _ _ _ fun j _ hj => h.2 j (by omega), Nat.zero_add, strncmpFast,
        if_pos (by simpa using hword), strncmpScan_word hd h]
    simp only [strncmp, if_neg (show ¬len ≤ 4 by omega), hfast]
    refine if_congr ⟨fun hz => .inr ⟨hlen, hz⟩, fun hz => ?_⟩ rfl rfl
    exact (hz.resolve_left (by omega)).2

/-- The kernel's `strncmp` depends on no byte behind `len` either. -/
lemma strncmp_congr {ptr0' : ℕ → BYTE} (h : ∀ j < len, ptr0' j = ptr0 j) :
    strncmp ptr0' ptr1 len = strncmp ptr0 ptr1 len := by
  obtain hall | ⟨d, hd, hfirst⟩ := forall_eq_or_firstDiff ptr0 ptr1 len
  · rw [strncmp_eq_zero_of_forall hall,
      strncmp_eq_zero_of_forall fun j hj => (h j hj).trans (hall j hj)]
  · have hfirst' : FirstDiff ptr0' ptr1 d := by
      refine ⟨?_, fun j hj => ?_⟩
      · rw [h d hd]
        exact hfirst.1
      · rw [h j (by omega)]
        exact hfirst.2 j hj
    rw [strncmp_of_firstDiff hd hfirst, strncmp_of_firstDiff hd hfirst', h d hd]
    refine if_congr (or_congr_right (and_congr_right fun _ => ?_)) rfl rfl
    exact exists_congr fun j => and_congr_right fun hj => by rw [h j (by omega)]

/-- **When `strncmp` is right.** For all strings and every bound, the kernel's `strncmp` returns
what the C standard says iff no end of the strings is missed (`Korolev.SeesEnd`). That value is
the same for all strings that agree up to a common terminator and up to `len`.

**Proof sketch.** If the strings agree up to `len`, both are `0`. Otherwise each of them is `0` or
the difference at the first position `d` where the strings differ, which is not `0`, and
`SeesEnd` says that they are `0` together. -/
theorem strncmp_eq_ref_iff (ptr0 ptr1 : ℕ → BYTE) (len : ℕ) :
    (strncmp ptr0 ptr1 len = strncmpRef ptr0 ptr1 len ↔ SeesEnd ptr0 ptr1 len) ∧
    ∀ ptr0' ptr1' : ℕ → BYTE,
      (∀ p < len, (∀ j < p, ¬(ptr0 j = 0 ∧ ptr1 j = 0)) →
        ptr0' p = ptr0 p ∧ ptr1' p = ptr1 p) →
      strncmpRef ptr0' ptr1' len = strncmpRef ptr0 ptr1 len := by
  refine ⟨?_, fun ptr0' ptr1' => strncmpRef_congr⟩
  obtain hall | ⟨d, hd, h⟩ := forall_eq_or_firstDiff ptr0 ptr1 len
  · refine iff_of_true ?_ fun d hd h => absurd (hall d hd) h.1
    rw [strncmp_eq_zero_of_forall hall, strncmpRef_of_forall hall]
  · have hne : byteDiff (ptr0 d) (ptr1 d) ≠ 0 := mt byteDiff_eq_zero.mp h.1
    have hsees : SeesEnd ptr0 ptr1 len ↔
        ((len = 4 ∨ 4 < len ∧ ∃ j < d, d / 4 * 4 ≤ j ∧ ptr0 j = 0) ↔ ∃ j < d, ptr0 j = 0) := by
      constructor
      · intro hs
        obtain ⟨hopen, hended⟩ := hs d hd h
        refine ⟨fun hzero => ?_, hended⟩
        rcases hzero with h4 | ⟨-, j, hj, -, h0⟩
        · by_contra hno
          exact hopen (fun j hj h0 => hno ⟨j, hj, h0⟩) h4
        · exact ⟨j, hj, h0⟩
      · intro hiff e he hfirst
        -- there is only one first difference
        obtain rfl : e = d := by
          rcases Nat.lt_trichotomy e d with hlt | heq | hlt
          · exact absurd (h.2 e hlt) hfirst.1
          · exact heq
          · exact absurd (hfirst.2 d hlt) h.1
        refine ⟨fun hopen h4 => ?_, hiff.mpr⟩
        obtain ⟨j, hj, h0⟩ := hiff.mp (.inl h4)
        exact hopen j hj h0
    rw [strncmp_of_firstDiff hd h, strncmpRef_of_firstDiff hd h, hsees]
    split_ifs with hk hr hr
    · exact iff_of_true rfl (iff_of_true hk hr)
    · exact iff_of_false hne.symm fun hiff => hr (hiff.mp hk)
    · exact iff_of_false hne fun hiff => hk (hiff.mpr hr)
    · exact iff_of_true rfl (iff_of_false hk hr)

end Strncmp

/-- The strings `abc`, with different bytes behind the terminator, compare as different. -/
theorem strncmp_misses_end :
    strncmp (ofList [0x61, 0x62, 0x63, 0, 0x78]) (ofList [0x61, 0x62, 0x63, 0, 0x79]) 8 = -1 ∧
    strncmpRef (ofList [0x61, 0x62, 0x63, 0, 0x78]) (ofList [0x61, 0x62, 0x63, 0, 0x79]) 8 = 0 := by
  decide

end Korolev
