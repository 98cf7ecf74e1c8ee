import Korolev.Kernel.Fastop
import Korolev.Libc.Itoa
import Korolev.Library.CString

set_option relaxedAutoImplicit false
set_option autoImplicit false

/-!
# `reverse`

`reverse` of `libc/stdlib.c` swaps the characters of a string from both ends. The index of the last
one is `strlen(s) - 1`; with what `strlen` of `kernel/fastop.asm` returns, that is one less than the
value of `eax` at its call, whatever the string (`Korolev.strlen_returns`). The indices are of type
`int`, so that a length above `2 ^ 31` is a negative index.

## Main definitions

* `Korolev.reverse`, with its loop `Korolev.reverseBody`.
* `Korolev.StrlenCall` — the machine when `strlen` is entered with a string.
* `Korolev.reversed` — a memory with the bytes of a stretch in reverse order.

## Main results

* `Korolev.returns_reverseBody` — the loop reverses the bytes up to the index it starts with.
* `Korolev.strlen_reverse_iff` — when `strlen` returns the length and `reverse` reverses the string.
-/

namespace Korolev

open CStr X86

/-- The variables of `reverse`. -/
structure ReverseState where
  mem : LONG → BYTE
  i : Int32
  j : Int32

/-- The loop `for (…; i<j; i++, j--)` of `reverse`. -/
def reverseBody (s : LONG) (st : ReverseState) : ReverseState ⊕ (LONG → BYTE) :=
  if st.i < st.j then
    let c := st.mem (s + st.i.toUInt32)
    let mem := Function.update st.mem (s + st.i.toUInt32) (st.mem (s + st.j.toUInt32))
    let mem := Function.update mem (s + st.j.toUInt32) c
    .inl ⟨mem, st.i + 1, st.j - 1⟩
  else .inr st.mem

/-- `reverse(s)`, with the fuel for `strlen` and for the loop, and the machine at the call of
`strlen`. -/
def reverse (fuel : ℕ) (call : State) (s : LONG) : Option (LONG → BYTE) :=
  match Loop.run (step strlenCode) fuel call with
  | some (.ret m _) => Loop.run (reverseBody s) fuel ⟨m.mem, 0, (m.reg .eax - 1).toInt32⟩
  | _ => none

/-! ## The loop -/

/-- The memory with the `n` bytes from `s` on in reverse order. -/
def reversed (mem : LONG → BYTE) (s : LONG) (n : ℕ) : LONG → BYTE := fun a =>
  if (a - s).toNat < n then mem (s + UInt32.ofNat (n - 1 - (a - s).toNat)) else mem a

/-- The memory with the first `t` and the last `t` of the `n` bytes swapped. -/
def swapped (mem : LONG → BYTE) (s : LONG) (n t : ℕ) : LONG → BYTE := fun a =>
  if (a - s).toNat < t ∨ n - t ≤ (a - s).toNat ∧ (a - s).toNat < n then
    mem (s + UInt32.ofNat (n - 1 - (a - s).toNat))
  else mem a

/-- An address, by its distance from `s`. -/
lemma eq_add_ofNat_iff {a s : LONG} {k : ℕ} (hk : k < 2 ^ 32) :
    a = s + UInt32.ofNat k ↔ (a - s).toNat = k := by
  constructor
  · rintro rfl
    exact toNat_add_sub hk
  · rintro rfl
    rw [UInt32.ofNat_toNat, UInt32.add_comm, UInt32.sub_add_cancel]

lemma reversed_add (mem : LONG → BYTE) (s : LONG) {n k : ℕ} (hk : k < n) (hn : n ≤ 2 ^ 32) :
    reversed mem s n (s + UInt32.ofNat k) = mem (s + UInt32.ofNat (n - 1 - k)) := by
  rw [reversed, toNat_add_sub (by omega), if_pos hk]

lemma reversed_of_le (mem : LONG → BYTE) {s a : LONG} {n : ℕ} (h : n ≤ (a - s).toNat) :
    reversed mem s n a = mem a := if_neg (by omega)

section Swapped

variable (mem : LONG → BYTE) (s : LONG) {n : ℕ} (hn : n ≤ 2 ^ 31)
include hn

/-- One more swap. -/
lemma swapped_succ {t : ℕ} (ht : 2 * t + 1 < n) :
    Function.update
      (Function.update (swapped mem s n t) (s + UInt32.ofNat t)
        (swapped mem s n t (s + UInt32.ofNat (n - 1 - t))))
      (s + UInt32.ofNat (n - 1 - t)) (swapped mem s n t (s + UInt32.ofNat t)) =
      swapped mem s n (t + 1) := by
  have hfirst : swapped mem s n t (s + UInt32.ofNat t) = mem (s + UInt32.ofNat t) := by
    rw [swapped, toNat_add_sub (by omega), if_neg (by omega)]
  have hlast : swapped mem s n t (s + UInt32.ofNat (n - 1 - t)) =
      mem (s + UInt32.ofNat (n - 1 - t)) := by
    rw [swapped, toNat_add_sub (by omega), if_neg (by omega)]
  rw [hfirst, hlast]
  funext a
  by_cases hj : a = s + UInt32.ofNat (n - 1 - t)
  · have hdist := (eq_add_ofNat_iff (by omega)).mp hj
    have hback : n - 1 - (n - 1 - t) = t := by omega
    rw [hj, Function.update_self, ← hj, swapped, hdist, if_pos (by omega), hback]
  rw [Function.update_of_ne hj]
  by_cases hi : a = s + UInt32.ofNat t
  · have hdist := (eq_add_ofNat_iff (by omega)).mp hi
    rw [hi, Function.update_self, ← hi, swapped, hdist, if_pos (by omega)]
  rw [Function.update_of_ne hi]
  rw [eq_add_ofNat_iff (by omega)] at hi hj
  unfold swapped
  congr 1
  apply propext
  omega

/-- When the indices meet, all is reversed. -/
lemma swapped_eq_reversed {t : ℕ} (ht : 2 * t ≤ n) (hend : n ≤ 2 * t + 1) :
    swapped mem s n t = reversed mem s n := by
  funext a
  unfold swapped reversed
  by_cases hmid : (a - s).toNat = t ∧ n = 2 * t + 1
  · have hsame : n - 1 - (a - s).toNat = t := by omega
    have ha : a = s + UInt32.ofNat t := (eq_add_ofNat_iff (by omega)).mpr hmid.1
    rw [if_neg (by omega), if_pos (by omega), hsame, ← ha]
  · congr 1
    apply propext
    omega

end Swapped

/-- An index that is not negative. -/
lemma toUInt32_eq_ofNat {x : Int32} {k : ℕ} (h : x.toInt = k) : x.toUInt32 = UInt32.ofNat k := by
  have hcast := natCast_toUInt32 x
  have hlt := x.toInt_lt
  rw [← UInt32.toNat_inj, toNat_ofNat_of_lt (by omega)]
  omega

/-- **The loop** reverses the bytes up to the index it starts with. -/
lemma returns_reverseBody (mem : LONG → BYTE) (s : LONG) {n : ℕ} (hn : n ≤ 2 ^ 31) {j : Int32}
    (hj : j.toInt = (n : ℤ) - 1) : Loop.Returns (reverseBody s) ⟨mem, 0, j⟩ (reversed mem s n) := by
  have h1 : (1 : Int32).toInt = 1 := rfl
  obtain ⟨mem', hret, rfl⟩ : ∃ mem', Loop.Returns (reverseBody s) ⟨mem, 0, j⟩ mem' ∧
      mem' = reversed mem s n := by
    apply Loop.exists_returns
      (fun st : ReverseState => ∃ t : ℕ, 2 * t ≤ n ∧ st.mem = swapped mem s n t ∧ st.i.toInt = t ∧
        st.j.toInt = (n : ℤ) - 1 - t)
      (fun st => n - 2 * st.i.toInt.toNat)
    · rintro ⟨mem', i, j⟩ ⟨t, ht, rfl, hi, hj⟩
      dsimp only at hi hj ⊢
      by_cases hlt : i < j
      · have hlt' := Int32.lt_iff_toInt_lt.mp hlt
        have hi' : i.toUInt32 = UInt32.ofNat t := toUInt32_eq_ofNat hi
        have hj' : j.toUInt32 = UInt32.ofNat (n - 1 - t) := toUInt32_eq_ofNat (by omega)
        have hi1 : (i + 1).toInt = t + 1 := by
          rw [Int32.toInt_add, h1, hi, Int.bmod_eq_of_le_mul_two (by omega) (by omega)]
        have hj1 : (j - 1).toInt = (n : ℤ) - 1 - t - 1 := by
          rw [Int32.toInt_sub, h1, hj, Int.bmod_eq_of_le_mul_two (by omega) (by omega)]
        left
        refine ⟨⟨swapped mem s n (t + 1), i + 1, j - 1⟩, ?_, ⟨t + 1, by omega, rfl, ?_, ?_⟩, ?_⟩
        · rw [← swapped_succ mem s hn (by omega), reverseBody]
          dsimp only
          rw [if_pos hlt, hi', hj']
        · dsimp only
          omega
        · dsimp only
          omega
        · dsimp only
          omega
      · right
        rw [Int32.lt_iff_toInt_lt] at hlt
        refine ⟨swapped mem s n t, if_neg ?_, swapped_eq_reversed mem s hn ht (by omega)⟩
        rwa [Int32.lt_iff_toInt_lt]
    · refine ⟨0, by omega, ?_, rfl, by simpa using hj⟩
      funext a
      exact (if_neg (by omega)).symm
  exact hret

/-! ## The function -/

/-- The bytes that `reverse` reverses, for the value of `eax` at the call of `strlen`. -/
def reverseCount (eax : LONG) : ℕ := if eax.toNat ≤ 2 ^ 31 then eax.toNat else 0

/-- **`reverse`** reverses as many bytes as `eax` says; if its index is negative, none. -/
lemma reverse_returns {m : State} (hpc : m.pc = 0) (s : LONG) :
    ∃ fuel, reverse fuel m s = some (reversed (savedMem m) s (reverseCount (m.reg .eax))) := by
  obtain ⟨e, ⟨fuel, hstrlen⟩, m', rfl, -, hmem, hreg⟩ := strlen_returns hpc
  have heax : m'.reg .eax = m.reg .eax := hreg .eax (by decide)
  obtain ⟨j, hj⟩ : ∃ j, j = (m.reg .eax - 1).toInt32 := ⟨_, rfl⟩
  have h1 : (1 : LONG).toNat = 1 := rfl
  have hjn : (j.toUInt32.toNat : ℤ) = j.toInt % 2 ^ 32 := natCast_toUInt32 j
  have hlow := j.le_toInt
  have hhigh := j.toInt_lt
  have hlt := (m.reg .eax).toNat_lt
  rw [hj, UInt32.toUInt32_toInt32, ← hj, UInt32.toNat_sub, h1] at hjn
  -- a count is a last index that is not negative, or `-1`
  have hloop : Loop.Returns (reverseBody s) ⟨savedMem m, 0, j⟩
      (reversed (savedMem m) s (reverseCount (m.reg .eax))) := by
    by_cases hcount : (m.reg .eax).toNat ≤ 2 ^ 31
    · rw [reverseCount, if_pos hcount]
      apply returns_reverseBody _ _ hcount
      omega
    · have hzero : reversed (savedMem m) s 0 = savedMem m := by
        funext a
        exact if_neg (Nat.not_lt_zero _)
      rw [reverseCount, if_neg hcount, hzero]
      apply Loop.Returns.exit
      apply if_neg
      rw [Int32.lt_iff_toInt_lt, Int32.toInt_zero]
      dsimp only
      omega
  obtain ⟨fuel', hloop⟩ := hloop
  refine ⟨max fuel fuel', ?_⟩
  rw [reverse, Loop.run_mono (Nat.le_max_left _ _) hstrlen]
  dsimp only
  rw [hmem, heax, ← hj]
  exact Loop.run_mono (Nat.le_max_right _ _) hloop

/-- The machine when `strlen` is entered with the string `str` at `s`: the argument is behind the
return address, and the string is not in the free part of the stack. -/
structure StrlenCall (m : State) (s : LONG) (str : List BYTE) : Prop where
  entry : m.pc = 0
  arg : load32 m.mem (m.reg .esp + 4) = s
  string : IsString (fun k => m.mem (s + UInt32.ofNat k)) str
  apart : ∀ k ≤ str.length, 8 ≤ (s + UInt32.ofNat k - (m.reg .esp - 8)).toNat

/-- `strlen` returns the length in `eax`, and keeps `esi` and `ecx`. -/
def StrlenCorrect (m : State) (str : List BYTE) : Prop :=
  ∃ m' addr, Loop.Returns (step strlenCode) m (.ret m' addr) ∧
    m'.reg .eax = UInt32.ofNat str.length ∧ m'.reg .esi = m.reg .esi ∧ m'.reg .ecx = m.reg .ecx

/-- `reverse` leaves the characters in reverse order, and changes no other byte but those of the
free part of the stack that `strlen` uses. -/
def ReverseCorrect (m : State) (s : LONG) (str : List BYTE) : Prop :=
  ∃ fuel mem', reverse fuel m s = some mem' ∧
    (∀ k (hk : k < str.length), mem' (s + UInt32.ofNat k) = str[str.length - 1 - k]) ∧
    ∀ a, str.length ≤ (a - s).toNat → 8 ≤ (a - (m.reg .esp - 8)).toNat → mem' a = m.mem a

/-- The length of a string is below the size of the address space. -/
lemma length_lt_of_isString {mem : LONG → BYTE} {s : LONG} {str : List BYTE}
    (h : IsString (fun k => mem (s + UInt32.ofNat k)) str) : str.length < 2 ^ 32 := by
  by_contra hge
  have hwrap : UInt32.ofNat (str.length - 2 ^ 32) = UInt32.ofNat str.length := by
    rw [← UInt32.toNat_inj, UInt32.toNat_ofNat', UInt32.toNat_ofNat']
    omega
  have hne := h.ne_zero (show str.length - 2 ^ 32 < str.length by omega)
  rw [hwrap] at hne
  exact hne h.terminator

/-- There is one result of `reverse` at most. -/
lemma eq_of_reverse_eq_some {m : State} (hpc : m.pc = 0) {s : LONG} {fuel : ℕ}
    {mem' : LONG → BYTE} (h : reverse fuel m s = some mem') :
    mem' = reversed (savedMem m) s (reverseCount (m.reg .eax)) := by
  obtain ⟨fuel', hrun⟩ := reverse_returns hpc s
  have hmono : ∀ {f f' : ℕ} {mem : LONG → BYTE}, f ≤ f' → reverse f m s = some mem →
      reverse f' m s = some mem := by
    intro f f' mem hle hf
    rw [reverse] at hf
    split at hf
    · next m' addr hstrlen =>
      rw [reverse, Loop.run_mono hle hstrlen]
      exact Loop.run_mono hle hf
    · exact absurd hf (by simp)
  have h₁ := hmono (Nat.le_max_left fuel fuel') h
  have h₂ := hmono (Nat.le_max_right fuel fuel') hrun
  exact Option.some.inj (h₁.symm.trans h₂)

section Call

variable {m : State} {s : LONG} {str : List BYTE} (h : StrlenCall m s str)
include h

/-- What `strlen` returns is what `eax` was. -/
lemma StrlenCall.strlenCorrect_iff :
    StrlenCorrect m str ↔ m.reg .eax = UInt32.ofNat str.length := by
  obtain ⟨e, hret, m', rfl, -, -, hreg⟩ := strlen_returns h.entry
  constructor
  · rintro ⟨m₂, addr, hret₂, heax, -⟩
    cases hret.unique hret₂
    rw [← hreg .eax (by decide)]
    exact heax
  · intro heax
    exact ⟨m', _, hret, (hreg .eax (by decide)).trans heax, hreg .esi (by decide),
      hreg .ecx (by decide)⟩

/-- The string, with `strlen`'s registers saved. -/
lemma StrlenCall.savedMem_eq {k : ℕ} (hk : k ≤ str.length) :
    savedMem m (s + UInt32.ofNat k) = m.mem (s + UInt32.ofNat k) :=
  savedMem_of_le (h.apart k hk)

/-- With the length in `eax`, the whole string is reversed. -/
lemma StrlenCall.reverseCount_eq (heax : m.reg .eax = UInt32.ofNat str.length)
    (hcount : str.length ≤ 2 ^ 31) : reverseCount (m.reg .eax) = str.length := by
  have hlt := length_lt_of_isString h.string
  rw [reverseCount, heax, toNat_ofNat_of_lt hlt, if_pos hcount]

/-- A character that stands where it should after the reversal. -/
lemma StrlenCall.reversed_cell (hcount : reverseCount (m.reg .eax) = str.length) {k : ℕ}
    (hk : k < str.length) :
    reversed (savedMem m) s (reverseCount (m.reg .eax)) (s + UInt32.ofNat k) =
      str[str.length - 1 - k] := by
  have hlt := length_lt_of_isString h.string
  rw [hcount, reversed_add _ _ hk (by omega), h.savedMem_eq (by omega)]
  exact h.string.cell _ (by omega)

/-- With the length in `eax`, `reverse` is right iff the index of the last character is not too
large for an `int`, or the string is the same in reverse order. -/
lemma StrlenCall.reverseCorrect_iff (heax : m.reg .eax = UInt32.ofNat str.length) :
    ReverseCorrect m s str ↔ str.length ≤ 2 ^ 31 ∨ str.reverse = str := by
  have hlt := length_lt_of_isString h.string
  have hnat : (m.reg .eax).toNat = str.length := by rw [heax, toNat_ofNat_of_lt hlt]
  obtain ⟨fuel, hrun⟩ := reverse_returns h.entry s
  have hframe : ∀ a, str.length ≤ (a - s).toNat → 8 ≤ (a - (m.reg .esp - 8)).toNat →
      reversed (savedMem m) s (reverseCount (m.reg .eax)) a = m.mem a := by
    intro a ha hstack
    rw [reversed_of_le, savedMem_of_le hstack]
    rw [reverseCount]
    split_ifs <;> omega
  by_cases hcount : str.length ≤ 2 ^ 31
  · have hfull := h.reverseCount_eq heax hcount
    exact iff_of_true ⟨fuel, _, hrun, fun k hk => h.reversed_cell hfull hk, hframe⟩ (.inl hcount)
  · -- the index is negative: the loop is not entered
    have hzero : reverseCount (m.reg .eax) = 0 := by rw [reverseCount, hnat, if_neg hcount]
    have hcell : ∀ k (hk : k < str.length),
        reversed (savedMem m) s (reverseCount (m.reg .eax)) (s + UInt32.ofNat k) = str[k] := by
      intro k hk
      rw [hzero, reversed_of_le _ (Nat.zero_le _), h.savedMem_eq hk.le]
      exact h.string.cell k hk
    rw [or_iff_right hcount]
    constructor
    · rintro ⟨fuel', mem', hrun', hcells, -⟩
      obtain rfl := eq_of_reverse_eq_some h.entry hrun'
      apply List.ext_getElem
      · exact List.length_reverse
      · intro k _ hk
        rw [List.getElem_reverse, ← hcells k hk, hcell k hk]
    · intro hpal
      refine ⟨fuel, _, hrun, fun k hk => ?_, hframe⟩
      rw [hcell k hk, ← List.getElem_reverse (by simpa using hk)]
      exact List.getElem_of_eq hpal.symm hk

/-- With the length in `eax`, the string is reversed, and its terminator stays. -/
lemma StrlenCall.isString_reverse (heax : m.reg .eax = UInt32.ofNat str.length)
    (hcount : str.length ≤ 2 ^ 31) :
    IsString (fun k => reversed (savedMem m) s (reverseCount (m.reg .eax)) (s + UInt32.ofNat k))
      str.reverse where
  cell k hk := by
    rw [List.length_reverse] at hk
    rw [h.reversed_cell (h.reverseCount_eq heax hcount) hk, List.getElem_reverse]
  notMem := by
    rw [List.mem_reverse]
    exact h.string.notMem
  terminator := by
    rw [List.length_reverse, h.reverseCount_eq heax hcount, reversed_of_le, h.savedMem_eq le_rfl]
    · exact h.string.terminator
    · rw [toNat_add_sub (by omega)]

end Call

/-- **`strlen` and `reverse`.** When `strlen` is called from `reverse` with a string, it returns
the length in `eax`, with `esi` and `ecx` kept, and `reverse` leaves the characters in reverse order
and changes no other byte, iff `eax` holds the length already when `strlen` is entered, and the
length is at most `2 ^ 31` or the string is the same in reverse order. If `eax` holds the length at
two calls, the second one on the string that the first one left, then the string is restored.

**Proof sketch.** `strlen` returns, and leaves all registers as they were (`strlen_returns`), so its
result is what `eax` was. With it `reverse` reverses as many bytes, or none if its index is negative
(`reverse_returns`). -/
theorem strlen_reverse_iff (m : State) (s : LONG) (str : List BYTE) (h : StrlenCall m s str) :
    (StrlenCorrect m str ∧ ReverseCorrect m s str ↔
      m.reg .eax = UInt32.ofNat str.length ∧ (str.length ≤ 2 ^ 31 ∨ str.reverse = str)) ∧
    ∀ fuel mem' m₂ str₂, m.reg .eax = UInt32.ofNat str.length → str.length ≤ 2 ^ 31 →
      reverse fuel m s = some mem' → StrlenCall m₂ s str₂ →
      (∀ k ≤ str.length, m₂.mem (s + UInt32.ofNat k) = mem' (s + UInt32.ofNat k)) →
      m₂.reg .eax = UInt32.ofNat str.length →
      ∃ fuel₂ mem'', reverse fuel₂ m₂ s = some mem'' ∧
        IsString (fun k => mem'' (s + UInt32.ofNat k)) str := by
  constructor
  · rw [h.strlenCorrect_iff]
    exact and_congr_right fun heax => h.reverseCorrect_iff heax
  · intro fuel mem' m₂ str₂ heax hcount hrun h₂ hmem heax₂
    obtain rfl := eq_of_reverse_eq_some h.entry hrun
    have hrev := h.isString_reverse heax hcount
    obtain rfl : str₂ = str.reverse := by
      apply h₂.string.unique
      refine ⟨fun k hk => ?_, hrev.notMem, ?_⟩
      · have hk' : k < str.length := by simpa using hk
        rw [hmem k hk'.le]
        exact hrev.cell k hk
      · rw [hmem _ List.length_reverse.le]
        exact hrev.terminator
    obtain ⟨fuel₂, hrun₂⟩ := reverse_returns h₂.entry s
    have hback := h₂.isString_reverse (by rw [heax₂, List.length_reverse])
      (by rw [List.length_reverse]; exact hcount)
    rw [List.reverse_reverse] at hback
    exact ⟨fuel₂, _, hrun₂, hback⟩

/-- A call with the string `ab` at `0x2000`, with `eax` as it happens to be. -/
def abCall (eax : LONG) : State where
  reg r := if r = .eax then eax else if r = .esp then 0x1000 else 0
  zf := false
  mem a :=
    if a = 0x1001 then 1 else if a = 0x1005 then 0x20
    else if a = 0x2000 then 0x61 else if a = 0x2001 then 0x62 else 0
  pc := 0

/-- With the length of `ab` in `eax`. -/
theorem strlen_reverse_two : StrlenCorrect (abCall 2) [0x61, 0x62] ∧
    ReverseCorrect (abCall 2) 0x2000 [0x61, 0x62] := by
  have hcall : StrlenCall (abCall 2) 0x2000 [0x61, 0x62] :=
    ⟨rfl, by decide, ⟨by decide, by decide, by decide⟩, by decide⟩
  obtain ⟨hiff, -⟩ := strlen_reverse_iff (abCall 2) 0x2000 [0x61, 0x62] hcall
  exact hiff.mpr ⟨by decide, .inl (by decide)⟩

/-- With `0` in `eax`, `strlen` returns `0` for `ab`, and `reverse` leaves it as it is. -/
theorem strlen_reverse_zero : StrlenCall (abCall 0) 0x2000 [0x61, 0x62] ∧
    (∃ m' addr, Loop.Returns (step strlenCode) (abCall 0) (.ret m' addr) ∧ m'.reg .eax = 0) ∧
    (∃ fuel mem', reverse fuel (abCall 0) 0x2000 = some mem' ∧ mem' 0x2000 = 0x61) ∧
    ¬StrlenCorrect (abCall 0) [0x61, 0x62] ∧ ¬ReverseCorrect (abCall 0) 0x2000 [0x61, 0x62] := by
  have hcall : StrlenCall (abCall 0) 0x2000 [0x61, 0x62] :=
    ⟨rfl, by decide, ⟨by decide, by decide, by decide⟩, by decide⟩
  obtain ⟨e, hret, m', rfl, -, -, hreg⟩ := strlen_returns hcall.entry
  obtain ⟨fuel, hrun⟩ := reverse_returns hcall.entry 0x2000
  have hcell : reversed (savedMem (abCall 0)) 0x2000 (reverseCount ((abCall 0).reg .eax)) 0x2000 =
      0x61 := by
    rw [reversed_of_le, savedMem_of_le]
    · decide
    · decide
    · decide
  refine ⟨hcall, ⟨m', _, hret, hreg .eax (by decide)⟩, ⟨fuel, _, hrun, hcell⟩, ?_, ?_⟩
  · rw [hcall.strlenCorrect_iff]
    decide
  · rintro ⟨fuel', mem', hrun', hcells, -⟩
    obtain rfl := eq_of_reverse_eq_some hcall.entry hrun'
    have hfirst := hcells 0 (by decide)
    exact absurd (hcell.symm.trans hfirst) (by decide)

end Korolev
