import Korolev.Base
import Korolev.Library.CString

set_option relaxedAutoImplicit false
set_option autoImplicit false

/-!
# Memory and string routines of the kernel's C library

`libc/stdlib.c` has the routines the kernel is linked with. Pointers are regions of bytes
(`Bytes`); a routine that writes takes the offset it writes at and returns the region after it.

`strncmp` is not the loop of the textbooks. It first compares word by word, one word more than
fit into `len`, and only on a mismatch looks at bytes, from the mismatching word on; the bytes
behind the last whole word are compared in a third loop, which does not stop at a terminator.
So it can tell strings apart by bytes behind a common terminator. What callers may rely on is
that a result of `0` is never wrong (`Korolev.eqUpTo_of_strncmp_eq_zero`), for every bound but
`4`, and that strings equal on all `len` bytes compare equal.

## Main definitions

* `Korolev.memcpy`, `Korolev.kmemset`, `Korolev.strncpy`, `Korolev.strncmp` — the routines.

## Main results

* `Korolev.memcpy_eq_blit`, `Korolev.kmemset_eq_blit`, `Korolev.strncpy_eq_blit` — the copy and fill
  loops are block stores.
* `Korolev.eqUpTo_of_strncmp_eq_zero` — strings that compare equal are equal.
* `Korolev.strncmp_eq_zero_of_forall` — strings that agree on `len` bytes compare equal.
* `Korolev.strncmp_eq_zero_iff_of_padded` — on padded strings `strncmp` decides equality.
* `Korolev.strncmp_eq_zero_iff_of_terminator` — on a string and an equal one that is padded, what
  is behind the terminator of the first decides.
-/

namespace Korolev

open Bytes CStr

/-! ## Copying and filling -/

/-- `memcpy(dst, src, n)`: `while(n--) *d++ = *s++;`, from offset `s` of one region to offset
`d` of another. -/
def memcpy (dst : ℕ → BYTE) (d : ℕ) (src : ℕ → BYTE) (s : ℕ) : ℕ → ℕ → BYTE
  | 0 => dst
  | n + 1 => memcpy (Function.update dst d (src s)) (d + 1) src (s + 1) n

/-- `kmemset(s, c, n)`: `while(n--) *p++ = (unsigned char)c;` -/
def kmemset (mem : ℕ → BYTE) (p : ℕ) (c : BYTE) : ℕ → ℕ → BYTE
  | 0 => mem
  | n + 1 => kmemset (Function.update mem p c) (p + 1) c n

/-- `strncpy(dest, src, n)`, from offset `s` of one region to offset `d` of another: behind the
terminator the rest is filled with `0`. -/
def strncpy (dest : ℕ → BYTE) (d : ℕ) (src : ℕ → BYTE) (s : ℕ) : ℕ → ℕ → BYTE
  | 0 => dest
  | n + 1 =>
    let dest := Function.update dest d (src s)
    if src s ≠ 0 then strncpy dest (d + 1) src (s + 1) n else kmemset dest (d + 1) 0 n

/-- A store at the front followed by a block store of the rest is one block store. -/
lemma blit_update (src dst : ℕ → BYTE) (off n : ℕ) :
    blit (Function.update dst off (src 0)) (off + 1) n (fun k => src (k + 1)) =
      blit dst off (n + 1) src := by
  funext a
  by_cases h : a = off
  · subst h
    rw [blit_of_not_mem (by omega), Function.update_self, blit_of_mem (by omega) (by omega),
      Nat.sub_self]
  · unfold blit
    rw [Function.update_of_ne h]
    split_ifs
    · dsimp only
      rw [show a - (off + 1) + 1 = a - off by omega]
    · omega
    · omega
    · rfl

/-- The copy loop is a block store. -/
lemma memcpy_eq_blit (src : ℕ → BYTE) (n : ℕ) : ∀ (dst : ℕ → BYTE) (d s : ℕ),
    memcpy dst d src s n = blit dst d n fun k => src (s + k) := by
  induction n with
  | zero => intro dst d s; simp [memcpy]
  | succ n ih =>
    intro dst d s
    rw [memcpy, ih, ← blit_update fun k => src (s + k)]
    simp only [Nat.add_zero, Nat.add_assoc, Nat.add_comm 1]

/-- The fill loop is a block store of a constant. -/
lemma kmemset_eq_blit (c : BYTE) (n : ℕ) : ∀ (mem : ℕ → BYTE) (p : ℕ),
    kmemset mem p c n = blit mem p n fun _ => c := by
  induction n with
  | zero => intro mem p; simp [kmemset]
  | succ n ih =>
    intro mem p
    rw [kmemset, ih, ← blit_update fun _ => c]

/-- A string with the padding behind it is a block store, too. -/
lemma strncpy_eq_blit (src : ℕ → BYTE) (n : ℕ) : ∀ (dest : ℕ → BYTE) (d s : ℕ),
    strncpy dest d src s n =
      blit dest d n fun i => if ∀ j < i, src (s + j) ≠ 0 then src (s + i) else 0 := by
  induction n with
  | zero => intro dest d s; simp [strncpy]
  | succ n ih =>
    intro dest d s
    have hsplit := blit_update (fun i => if ∀ j < i, src (s + j) ≠ 0 then src (s + i) else 0)
      dest d n
    have hfirst : (if ∀ j < 0, src (s + j) ≠ 0 then src (s + 0) else 0) = src s :=
      if_pos fun j hj => absurd hj (Nat.not_lt_zero j)
    rw [hfirst] at hsplit
    rw [strncpy, ← hsplit]
    by_cases h0 : src s = 0
    · rw [if_neg (not_not.mpr h0), kmemset_eq_blit]
      refine blit_congr fun k _ => (if_neg fun h => ?_).symm
      exact h 0 (Nat.succ_pos k) h0
    · rw [if_pos h0, ih]
      refine blit_congr fun k _ => ?_
      have hnext : ∀ j, s + 1 + j = s + (j + 1) := fun j => by omega
      have hiff : (∀ j < k, src (s + 1 + j) ≠ 0) ↔ ∀ j < k + 1, src (s + j) ≠ 0 := by
        rw [Nat.forall_lt_succ_left]
        simp only [hnext]
        exact (and_iff_right h0).symm
      simp only [hiff]
      rw [hnext]

/-! ## Comparing -/

/-- The value `strncmp` returns at a deciding position. -/
def byteDiff (a b : BYTE) : ℤ := (a.toNat : ℤ) - b.toNat

lemma byteDiff_eq_zero {a b : BYTE} : byteDiff a b = 0 ↔ a = b := by
  rw [← UInt8.toNat_inj, byteDiff]
  omega

/-- The inner loop of `strncmp`, entered at a mismatching word, with `n = len - pos` bytes left:
it stops at the first position where the bytes differ or one of them is `0`. -/
def strncmpScan (ptr0 ptr1 : ℕ → BYTE) : (n pos : ℕ) → Option ℤ
  | 0, _ => none
  | n + 1, pos =>
    if (ptr0 pos ^^^ ptr1 pos) ≠ 0 ∨ ptr0 pos = 0 ∨ ptr1 pos = 0 then
      some (byteDiff (ptr0 pos) (ptr1 pos))
    else strncmpScan ptr0 ptr1 n (pos + 1)

/-- The word loop of `strncmp` with `n = fast - current_block` words left. -/
def strncmpFast (ptr0 ptr1 : ℕ → BYTE) (len : ℕ) : (n currentBlock : ℕ) → Option ℤ
  | 0, _ => none
  | n + 1, currentBlock =>
    if (le32 ptr0 (currentBlock * 4) ^^^ le32 ptr1 (currentBlock * 4)) ≠ 0 then
      match strncmpScan ptr0 ptr1 (len - currentBlock * 4) (currentBlock * 4) with
      | some r => some r
      -- the words differ only behind `len`: the loop goes on
      | none => strncmpFast ptr0 ptr1 len n (currentBlock + 1)
    else strncmpFast ptr0 ptr1 len n (currentBlock + 1)

/-- The last loop of `strncmp` with `n = len - offset` bytes left; it does not look for a
terminator. -/
def strncmpTail (ptr0 ptr1 : ℕ → BYTE) : (n offset : ℕ) → ℤ
  | 0, _ => 0
  | n + 1, offset =>
    if (ptr0 offset ^^^ ptr1 offset) ≠ 0 then byteDiff (ptr0 offset) (ptr1 offset)
    else strncmpTail ptr0 ptr1 n (offset + 1)

/-- `strncmp(ptr0, ptr1, len)` for `len ≥ 0`, with a `size_t` of four bytes. -/
def strncmp (ptr0 ptr1 : ℕ → BYTE) (len : ℕ) : ℤ :=
  let fast := len / 4 + 1
  let offset := (fast - 1) * 4
  let fast := if len ≤ 4 then 0 else fast
  match strncmpFast ptr0 ptr1 len fast 0 with
  | some r => r
  | none => strncmpTail ptr0 ptr1 (len - offset) offset

section Strncmp

variable (ptr0 ptr1 : ℕ → BYTE)

/-- The byte scan, as a case analysis: it either finds the strings equal on all bytes left, or
decides at a position up to which they agree. -/
lemma strncmpScan_cases (n : ℕ) : ∀ pos,
    (strncmpScan ptr0 ptr1 n pos = none ∧ ∀ j, pos ≤ j → j < pos + n → ptr0 j = ptr1 j) ∨
    ∃ k, pos ≤ k ∧ k < pos + n ∧ (∀ j, pos ≤ j → j < k → ptr0 j = ptr1 j) ∧
      (ptr0 k = ptr1 k → ptr0 k = 0) ∧
      strncmpScan ptr0 ptr1 n pos = some (byteDiff (ptr0 k) (ptr1 k)) := by
  induction n with
  | zero => exact fun pos => .inl ⟨rfl, fun j _ _ => by omega⟩
  | succ n ih =>
    intro pos
    by_cases hstop : (ptr0 pos ^^^ ptr1 pos) ≠ 0 ∨ ptr0 pos = 0 ∨ ptr1 pos = 0
    · refine .inr ⟨pos, le_rfl, by omega, fun j _ _ => by omega, fun he => ?_, by
        rw [strncmpScan, if_pos hstop]⟩
      rcases hstop with h | h | h
      · exact absurd (UInt8.xor_eq_zero_iff.mpr he) h
      · exact h
      · rw [he, h]
    · have heq : ptr0 pos = ptr1 pos := by
        by_contra hne
        exact hstop (.inl fun h => hne (UInt8.xor_eq_zero_iff.mp h))
      rw [strncmpScan, if_neg hstop]
      rcases ih (pos + 1) with ⟨hn, hall⟩ | ⟨k, hk1, hk2, hpre, hz, hr⟩
      · exact .inl ⟨hn, forall_of_first heq fun j h₁ h₂ => hall j h₁ (by omega)⟩
      · exact .inr ⟨k, by omega, by omega, forall_of_first heq hpre, hz, hr⟩

/-- The word loop, entered behind a common prefix: if it decides for `0`, the strings share a
terminator below `len`; if it does not decide, they agree on all bytes of its words.

**Proof sketch.** Induction on the number of words left. Equal words extend the common prefix by
four bytes. At different words the byte scan decides (`strncmpScan_cases`), or the remaining
bytes up to `len` agree. -/
lemma strncmpFast_spec (len n : ℕ) : ∀ b, (∀ j < b * 4, j < len → ptr0 j = ptr1 j) →
    (∀ r, strncmpFast ptr0 ptr1 len n b = some r → r = 0 →
      ∃ k < len, (∀ j ≤ k, ptr0 j = ptr1 j) ∧ ptr0 k = 0) ∧
    (strncmpFast ptr0 ptr1 len n b = none →
      ∀ j < (b + n) * 4, j < len → ptr0 j = ptr1 j) := by
  induction n with
  | zero =>
    intro b hpre
    exact ⟨fun r h => by simp [strncmpFast] at h, fun _ => by simpa using hpre⟩
  | succ n ih =>
    intro b hpre
    have hidx : b + (n + 1) = b + 1 + n := by omega
    by_cases hw : le32 ptr0 (b * 4) = le32 ptr1 (b * 4)
    · have hpre' : ∀ j < (b + 1) * 4, j < len → ptr0 j = ptr1 j := by
        intro j hj hjl
        by_cases hj' : j < b * 4
        · exact hpre j hj' hjl
        · have := le32_eq_iff.mp hw (j - b * 4) (by omega)
          rwa [Nat.add_sub_of_le (by omega)] at this
      rw [strncmpFast, if_neg (by simpa using hw), hidx]
      exact ih (b + 1) hpre'
    · rw [strncmpFast, if_pos (by simpa using hw), hidx]
      rcases strncmpScan_cases ptr0 ptr1 (len - b * 4) (b * 4) with
        ⟨hn, hall⟩ | ⟨k, hk1, hk2, hscan, hz, hr⟩
      · rw [hn]
        refine ih (b + 1) fun j _ hjl => ?_
        by_cases hj' : j < b * 4
        · exact hpre j hj' hjl
        · exact hall j (by omega) (by omega)
      · rw [hr]
        refine ⟨fun r h h0 => ?_, fun h => by simp at h⟩
        have hk : ptr0 k = ptr1 k := by
          rw [← byteDiff_eq_zero, ← h0]
          exact Option.some.inj h
        refine ⟨k, by omega, fun j hj => ?_, hz hk⟩
        obtain rfl | hjk := eq_or_lt_of_le hj
        · exact hk
        · by_cases hj' : j < b * 4
          · exact hpre j hj' (by omega)
          · exact hscan j (by omega) hjk

variable {ptr0 ptr1}

/-- The last loop returns `0` iff the bytes left agree. -/
lemma strncmpTail_eq_zero_iff (n : ℕ) : ∀ offset,
    strncmpTail ptr0 ptr1 n offset = 0 ↔
      ∀ j, offset ≤ j → j < offset + n → ptr0 j = ptr1 j := by
  induction n with
  | zero => exact fun offset => ⟨fun _ j _ _ => by omega, fun _ => rfl⟩
  | succ n ih =>
    intro offset
    rw [strncmpTail]
    by_cases h : ptr0 offset = ptr1 offset
    · rw [if_neg (by simpa using h), ih]
      refine ⟨fun hall => ?_, fun hall j h1 h2 => hall j (by omega) (by omega)⟩
      exact forall_of_first h fun j h1 h2 => hall j h1 (by omega)
    · rw [if_pos (by simpa using h), byteDiff_eq_zero]
      exact ⟨fun he => absurd he h, fun hall => hall offset le_rfl (by omega)⟩

/-- **A result of `0` is never wrong**: strings that compare equal are equal as C strings
bounded by `len`. (The bound `4` is different: `fast` is reset to `0` after `offset` was
computed from it, and no byte is compared at all.) -/
theorem eqUpTo_of_strncmp_eq_zero {len : ℕ} (hlen : 4 < len)
    (h : strncmp ptr0 ptr1 len = 0) : EqUpTo len ptr0 ptr1 := by
  obtain ⟨hsome, hnone⟩ := strncmpFast_spec ptr0 ptr1 len (len / 4 + 1) 0
    fun j hj => by omega
  simp only [strncmp, if_neg (show ¬len ≤ 4 by omega)] at h
  cases hf : strncmpFast ptr0 ptr1 len (len / 4 + 1) 0 with
  | some r =>
    rw [hf] at h
    obtain ⟨k, _, hpre, hz⟩ := hsome r hf h
    exact EqUpTo.of_terminator hpre hz
  | none => exact EqUpTo.of_forall fun j hj => hnone hf j (by omega) hj

/-- The word loop never decides against strings that agree on `len` bytes. -/
lemma strncmpFast_of_forall {len : ℕ} (h : ∀ j < len, ptr0 j = ptr1 j) (n : ℕ) : ∀ b,
    strncmpFast ptr0 ptr1 len n b = none ∨ strncmpFast ptr0 ptr1 len n b = some 0 := by
  induction n with
  | zero => exact fun b => .inl rfl
  | succ n ih =>
    intro b
    rw [strncmpFast]
    split
    · rcases strncmpScan_cases ptr0 ptr1 (len - b * 4) (b * 4) with
        ⟨hn, _⟩ | ⟨k, hk1, hk2, _, _, hr⟩
      · rw [hn]
        exact ih (b + 1)
      · rw [hr, byteDiff_eq_zero.mpr (h k (by omega))]
        exact .inr rfl
    · exact ih (b + 1)

/-- Strings that agree on `len` bytes compare equal. -/
theorem strncmp_eq_zero_of_forall {len : ℕ} (h : ∀ j < len, ptr0 j = ptr1 j) :
    strncmp ptr0 ptr1 len = 0 := by
  have htail : strncmpTail ptr0 ptr1 (len - (len / 4 + 1 - 1) * 4) ((len / 4 + 1 - 1) * 4) = 0 :=
    (strncmpTail_eq_zero_iff _ _).mpr fun j h1 h2 => h j (by omega)
  unfold strncmp
  rcases strncmpFast_of_forall h (if len ≤ 4 then 0 else len / 4 + 1) 0 with hf | hf
  · simp only [hf, htail]
  · simp only [hf]

/-- On strings padded with `0`, `strncmp` decides equality of the first `len` bytes. -/
theorem strncmp_eq_zero_iff_of_padded {len : ℕ} (hlen : 4 < len) (h0 : Padded len ptr0)
    (h1 : Padded len ptr1) : strncmp ptr0 ptr1 len = 0 ↔ ∀ j < len, ptr0 j = ptr1 j :=
  ⟨fun h => (eqUpTo_iff_of_padded h0 h1).mp (eqUpTo_of_strncmp_eq_zero hlen h),
    strncmp_eq_zero_of_forall⟩

/-! ## Comparing with a zero-padded string -/

/-- The byte scan stops at a common terminator. -/
lemma strncmpScan_of_terminator {k : ℕ} (hk : ptr0 k = 0) (hk' : ptr1 k = 0) :
    ∀ (n pos : ℕ), pos ≤ k → k < pos + n →
      (∀ j, pos ≤ j → j < k → ptr0 j = ptr1 j ∧ ptr0 j ≠ 0) →
      strncmpScan ptr0 ptr1 n pos = some 0
  | 0, pos, _, _, _ => by omega
  | n + 1, pos, hle, hlt, hpre => by
    rw [strncmpScan]
    obtain rfl | hne := eq_or_lt_of_le hle
    · rw [if_pos (.inr (.inl hk)), hk, hk']
      rfl
    · obtain ⟨heq, hnz⟩ := hpre pos le_rfl hne
      have hgo : ¬((ptr0 pos ^^^ ptr1 pos) ≠ 0 ∨ ptr0 pos = 0 ∨ ptr1 pos = 0) := by
        rintro (h | h | h)
        · exact h (UInt8.xor_eq_zero_iff.mpr heq)
        · exact hnz h
        · exact hnz (heq.trans h)
      rw [if_neg hgo]
      exact strncmpScan_of_terminator hk hk' n (pos + 1) hne (by omega)
        fun j hj hjk => hpre j (by omega) hjk

/-- From word `b` on, the first nonzero byte below `len` is not the first byte of a word. -/
def QuietFrom (ptr0 : ℕ → BYTE) (len b : ℕ) : Prop :=
  ∀ c, b ≤ c → c * 4 < len → (∀ j, b * 4 ≤ j → j < c * 4 → ptr0 j = 0) → ptr0 (c * 4) = 0

/-- A word of zeros changes nothing. -/
lemma quietFrom_succ {len b : ℕ} (hword : ∀ k < 4, ptr0 (b * 4 + k) = 0) :
    QuietFrom ptr0 len b ↔ QuietFrom ptr0 len (b + 1) := by
  constructor
  · intro h c hc hlt hzero
    refine h c (by omega) hlt fun j hj hjc => ?_
    by_cases hjb : j < (b + 1) * 4
    · have hbyte := hword (j - b * 4) (by omega)
      rwa [Nat.add_sub_of_le hj] at hbyte
    · exact hzero j (by omega) hjc
  · intro h c hc hlt hzero
    obtain rfl | hbc := eq_or_lt_of_le hc
    · exact hword 0 (by omega)
    · exact h c hbc hlt fun j hj hjc => hzero j (by omega) hjc

/-- The word loop of a comparison with zeros, up to the last word: it finds no difference iff the
first nonzero byte is hidden behind a zero of its word.

**Proof sketch.** Induction on the number of words left. A word of zeros is skipped. In the first
other word the byte scan stops at its first byte: at a common terminator, or at a difference. -/
lemma strncmpFast_zeros {w : ℕ} : ∀ (n b : ℕ), b + n = w + 1 →
    (∀ k, b * 4 ≤ k → k < w * 4 → ptr1 k = 0) →
    ((strncmpFast ptr0 ptr1 (w * 4) n b).getD 0 = 0 ↔ QuietFrom ptr0 (w * 4) b)
  | 0, b, hb, _ => iff_of_true rfl fun c hc hlt _ => by omega
  | n + 1, b, hb, hz => by
    have ih := strncmpFast_zeros n (b + 1) (by omega) fun k hk hlt => hz k (by omega) hlt
    rw [strncmpFast]
    by_cases hlast : b = w
    · -- the word behind `len` is loaded, but no byte of it is looked at
      obtain rfl : n = 0 := by omega
      refine iff_of_true ?_ fun c hc hlt _ => by omega
      rw [hlast, Nat.sub_self, strncmpScan]
      simp [strncmpFast]
    by_cases hword : ∀ k < 4, ptr0 (b * 4 + k) = 0
    · have heq : le32 ptr0 (b * 4) = le32 ptr1 (b * 4) :=
        le32_congr fun k hk => by rw [hword k hk, hz _ (by omega) (by omega)]
      rw [if_neg (by simpa using heq), quietFrom_succ hword]
      exact ih
    · have hne : le32 ptr0 (b * 4) ≠ le32 ptr1 (b * 4) := fun h => hword fun k hk => by
        rw [le32_eq_iff.mp h k hk, hz _ (by omega) (by omega)]
      have hq : ptr1 (b * 4) = 0 := hz _ le_rfl (by omega)
      rw [if_pos (by simpa using hne)]
      by_cases hfirst : ptr0 (b * 4) = 0
      · rw [strncmpScan_of_terminator hfirst hq _ _ le_rfl (by omega) fun j hj hjk => by omega]
        refine iff_of_true rfl fun c hc hlt hzero => ?_
        obtain rfl | hbc := eq_or_lt_of_le hc
        · exact hfirst
        · exact absurd (fun k hk => hzero (b * 4 + k) (by omega) (by omega)) hword
      · obtain ⟨m, hm⟩ : ∃ m, w * 4 - b * 4 = m + 1 := ⟨w * 4 - b * 4 - 1, by omega⟩
        have hstop : (ptr0 (b * 4) ^^^ ptr1 (b * 4)) ≠ 0 := by
          rw [hq]
          simpa using hfirst
        rw [hm, strncmpScan, if_pos (.inl hstop)]
        refine iff_of_false ?_ fun h => hfirst (h b le_rfl (by omega) fun j hj hjb => by omega)
        rw [Option.getD_some, byteDiff_eq_zero, hq]
        exact hfirst

/-- The word loop skips words that agree. -/
lemma strncmpFast_skip {len : ℕ} : ∀ (m n b : ℕ),
    (∀ j, b * 4 ≤ j → j < (b + m) * 4 → ptr0 j = ptr1 j) →
    strncmpFast ptr0 ptr1 len (m + n) b = strncmpFast ptr0 ptr1 len n (b + m)
  | 0, n, b, _ => by rw [Nat.zero_add, Nat.add_zero]
  | m + 1, n, b, heq => by
    have hword : le32 ptr0 (b * 4) = le32 ptr1 (b * 4) :=
      le32_congr fun k hk => heq _ (by omega) (by omega)
    have hidx : m + 1 + n = m + n + 1 := by omega
    rw [hidx, strncmpFast, if_neg (by simpa using hword),
      strncmpFast_skip m n (b + 1) fun j hj hlt => heq j (by omega) (by omega)]
    congr 1
    omega

/-- **Comparing with a zero-padded string.** For a bound of `w` words, a string that has the
terminator of `ptr1` at the same place, and agrees with it before, compares equal iff a nonzero
byte follows in the word of the terminator, or the first nonzero byte behind that word is not the
first byte of a word. -/
lemma strncmp_eq_zero_iff_of_terminator {w l : ℕ} (hw : 1 < w) (hl : l < w * 4)
    (heq : ∀ j < l, ptr0 j = ptr1 j ∧ ptr0 j ≠ 0) (h0 : ptr0 l = 0)
    (hz : ∀ k, l ≤ k → k < w * 4 → ptr1 k = 0) :
    strncmp ptr0 ptr1 (w * 4) = 0 ↔
      (∃ k, l < k ∧ k < (l / 4 + 1) * 4 ∧ ptr0 k ≠ 0) ∨ QuietFrom ptr0 (w * 4) (l / 4 + 1) := by
  have hstrncmp : strncmp ptr0 ptr1 (w * 4) = (strncmpFast ptr0 ptr1 (w * 4) (w + 1) 0).getD 0 := by
    have hdiv : w * 4 / 4 = w := by omega
    simp only [strncmp, hdiv, Nat.add_sub_cancel, Nat.sub_self, if_neg (show ¬w * 4 ≤ 4 by omega)]
    cases strncmpFast ptr0 ptr1 (w * 4) (w + 1) 0 <;> rfl
  have hidx : w + 1 = l / 4 + (w - l / 4 + 1) := by omega
  have hzero : ptr1 l = 0 := hz l le_rfl hl
  rw [hstrncmp, hidx, strncmpFast_skip _ _ _ fun j _ hj => (heq j (by omega)).1, Nat.zero_add,
    strncmpFast]
  by_cases hword : le32 ptr0 (l / 4 * 4) = le32 ptr1 (l / 4 * 4)
  · rw [if_neg (by simpa using hword), strncmpFast_zeros _ _ (by omega) fun k hk hlt =>
      hz k (by omega) hlt]
    refine (or_iff_right ?_).symm
    rintro ⟨k, hlk, hlt, hne⟩
    have hbyte := le32_eq_iff.mp hword (k - l / 4 * 4) (by omega)
    rw [Nat.add_sub_of_le (by omega), hz k (by omega) (by omega)] at hbyte
    exact hne hbyte
  · rw [if_pos (by simpa using hword), strncmpScan_of_terminator h0 hzero _ _ (by omega) (by omega)
      fun j _ hj => heq j hj]
    refine iff_of_true rfl (.inl ?_)
    by_contra hnone
    refine hword (le32_congr fun k hk => ?_)
    rcases Nat.lt_trichotomy (l / 4 * 4 + k) l with h | h | h
    · exact (heq _ h).1
    · rw [h, h0, hzero]
    · rw [hz _ (by omega) (by omega)]
      by_contra hne
      exact hnone ⟨_, h, by omega, hne⟩

end Strncmp

end Korolev
