import Korolev.Kernel.Numbers
import Korolev.Library.Ipv6Text

set_option relaxedAutoImplicit false
set_option autoImplicit false

/-!
# Showing IPv6 addresses

`network_print_ipv6` of `net/network.c` shows an address, read as eight words, and the length of its
prefix. The first run of zero words is left out. A flag follows the run: it is `0` before, `1`
inside and `2` behind it. What stands for the run is the colon behind the word before it, and one
more, which is put at the word behind it, or at the last word. A run at the front has no word
before it, and a run of the last word alone ends before that colon is put: the text has a single
colon at its end then, and is none of an address.

## Main definitions

* `Korolev.networkPrintIpv6` — the characters put.

## Main results

* `Korolev.group_shown` — a word is shown as a group.
* `Korolev.network_print_ipv6_iff` — when the text is one of the address.
-/

namespace Korolev

open Bytes Ipv6Text Numeral

/-- `netdev_addr`, as far as it is shown. -/
structure NetdevAddr where
  addr : ℕ → BYTE
  mask : ℕ → BYTE

/-- The characters of the loop over the words, with `n = 8 - i` of them left; `omitted` is the
flag. -/
def ipv6Loop (waddr : ℕ → WORD) : (n i omitted : ℕ) → List BYTE
  | 0, _, _ => []
  | n + 1, i, omitted =>
    if waddr i = 0 ∧ omitted = 0 then ipv6Loop waddr n (i + 1) 1
    else if waddr i = 0 ∧ omitted = 1 ∧ i = 7 then [0x3a]
    else if waddr i = 0 ∧ omitted = 1 then ipv6Loop waddr n (i + 1) omitted
    else
      let r := if waddr i ≠ 0 ∧ omitted = 1 then ([0x3a], 2) else ([], omitted)
      r.1 ++ putn16 (waddr i).toUInt32 ++ (if i ≠ 7 then [0x3a] else []) ++
        ipv6Loop waddr n (i + 1) r.2

/-- `while(b) { prefix++; b >>= 1; }`; a byte is `0` after eight iterations. -/
def bitsLoop : (n : ℕ) → (b : BYTE) → LONG → LONG
  | 0, _, len => len
  | n + 1, b, len => if b ≠ 0 then bitsLoop n (b >>> 1) (len + 1) else len

/-- The loop over the mask, with `n = 16 - i` bytes left. -/
def prefixLoop (mask : ℕ → BYTE) : (n i : ℕ) → LONG → LONG
  | 0, _, len => len
  | n + 1, i, len =>
    if mask i = 0xff then prefixLoop mask n (i + 1) (len + 8)
    else if mask i = 0x00 then len
    else bitsLoop 8 (mask i) len

/-- The words of an address, as `waddr` reads them. -/
def NetdevAddr.word (a : NetdevAddr) (i : ℕ) : WORD := le16 a.addr (2 * i)

/-- `network_print_ipv6(addr)`: the characters put. -/
def networkPrintIpv6 (a : NetdevAddr) : List BYTE :=
  ipv6Loop a.word 8 0 0 ++ 0x2f :: putn10 (prefixLoop a.mask 16 0 0)

/-! ## A word -/

/-- The digits of numerals are those of groups. -/
lemma hexDigit_digit {d : ℕ} (hd : d < 16) : hexDigit (digit d) = some d := by
  revert d
  decide

/-- Digits behind a number. -/
lemma number_digits {s : List BYTE} (hs : ∀ c ∈ s, ∃ d < 16, c = digit d) (m : ℕ) :
    number m s = some (16 ^ s.length * m + value 16 s) := by
  induction s generalizing m with
  | nil => simp [number, value]
  | cons c s ih =>
    obtain ⟨d, hd, rfl⟩ := hs c List.mem_cons_self
    have hrest := ih fun c hc => hs c (List.mem_cons_of_mem _ hc)
    rw [number, hexDigit_digit hd, Option.bind_some, hrest, value_cons, digitVal_digit (by omega),
      List.length_cons]
    refine congrArg some ?_
    ring

/-- The text of a word. -/
def shown (w : WORD) : List BYTE := putn16 w.toUInt32

/-- **A word is shown as a group.** -/
lemma group_shown (w : WORD) : group (shown w) = some w.toNat := by
  have hw := w.toNat_lt
  have hnum := isNumeral_putn16 w.toUInt32
  rw [UInt16.toNat_toUInt32] at hnum
  have hlen := hnum.length_le (k := 4) (by omega) (by omega) (by omega) (by omega)
  rw [shown, group, if_neg, number_digits hnum.digits, hnum.value_eq, Nat.mul_zero, Nat.zero_add]
  rintro (hnil | hlong)
  · exact hnum.ne_nil hnil
  · omega

/-! ## The words -/

section Loop

variable (w : ℕ → WORD)

/-- The words from `i` on, with a colon between two of them. -/
def shownFrom (i : ℕ) : List BYTE := join shown ((List.range' i (8 - i)).map w)

lemma shownFrom_eight : shownFrom w 8 = [] := rfl

lemma shownFrom_of_lt {i : ℕ} (hi : i < 8) :
    shownFrom w i = shown (w i) ++ (if i ≠ 7 then [colon] else []) ++ shownFrom w (i + 1) := by
  obtain ⟨n, hn⟩ : ∃ n, 8 - i = n + 1 := ⟨7 - i, by omega⟩
  have hrest : 8 - (i + 1) = n := by omega
  rw [shownFrom, shownFrom, hn, hrest, List.range'_succ, List.map_cons]
  cases n with
  | zero =>
    have hlast : i = 7 := by omega
    simp [hlast, join_singleton]
  | succ n =>
    have hlast : i ≠ 7 := by omega
    rw [List.range'_succ, List.map_cons, join_cons_cons, if_pos hlast, List.append_assoc]
    rfl

/-- Behind the run all words are shown. -/
lemma ipv6Loop_behind : ∀ (n i : ℕ), i + n = 8 → ipv6Loop w n i 2 = shownFrom w i
  | 0, i, h => by
    obtain rfl : i = 8 := by omega
    rfl
  | n + 1, i, h => by
    rw [shownFrom_of_lt w (by omega), ← ipv6Loop_behind n (i + 1) (by omega), ipv6Loop]
    simp [shown, colon]

/-- Inside the run a colon is put at its end. -/
lemma ipv6Loop_inside : ∀ (n i : ℕ), i + (n + 1) = 8 →
    ∃ j, i ≤ j ∧ j ≤ 8 ∧ (∀ k, i ≤ k → k < j → w k = 0) ∧
      ipv6Loop w (n + 1) i 1 = colon :: shownFrom w j
  | n, i, h => by
    by_cases hzero : w i = 0
    · by_cases hlast : i = 7
      · refine ⟨8, by omega, le_rfl, fun k h₁ h₂ => ?_, ?_⟩
        · obtain rfl : k = i := by omega
          exact hzero
        · rw [ipv6Loop, if_neg (by simp), if_pos ⟨hzero, rfl, hlast⟩, shownFrom_eight]
          rfl
      · obtain ⟨n, rfl⟩ : ∃ m, n = m + 1 := ⟨n - 1, by omega⟩
        obtain ⟨j, hij, hj, hrun, hloop⟩ := ipv6Loop_inside n (i + 1) (by omega)
        refine ⟨j, by omega, hj, forall_of_first hzero hrun, ?_⟩
        rw [ipv6Loop, if_neg (by simp), if_neg fun h => hlast h.2.2, if_pos ⟨hzero, rfl⟩, hloop]
    · refine ⟨i, le_rfl, by omega, fun k h₁ h₂ => by omega, ?_⟩
      rw [shownFrom_of_lt w (by omega), ← ipv6Loop_behind w n (i + 1) (by omega), ipv6Loop]
      simp [hzero, shown, colon]

/-- Before the run a colon is put behind every word. -/
lemma ipv6Loop_before : ∀ (n i : ℕ), i + n = 8 →
    (∀ k, i ≤ k → k < 8 → w k ≠ 0) ∧ ipv6Loop w n i 0 = shownFrom w i ∨
    ∃ k, i ≤ k ∧ k < 8 ∧ w k = 0 ∧ (∀ j, i ≤ j → j < k → w j ≠ 0) ∧
      ipv6Loop w n i 0 =
        ((List.range' i (k - i)).flatMap fun j => shown (w j) ++ [colon]) ++
          ipv6Loop w (7 - k) (k + 1) 1
  | 0, i, h => by
    obtain rfl : i = 8 := by omega
    exact .inl ⟨fun k h₁ h₂ => by omega, rfl⟩
  | n + 1, i, h => by
    by_cases hzero : w i = 0
    · refine .inr ⟨i, le_rfl, by omega, hzero, fun j h₁ h₂ => by omega, ?_⟩
      have hn : 7 - i = n := by omega
      rw [ipv6Loop, if_pos ⟨hzero, rfl⟩, hn, Nat.sub_self]
      rfl
    · have hstep : ipv6Loop w (n + 1) i 0 =
          shown (w i) ++ (if i ≠ 7 then [colon] else []) ++ ipv6Loop w n (i + 1) 0 := by
        rw [ipv6Loop]
        simp [hzero, shown, colon]
      obtain ⟨hall, hloop⟩ | ⟨k, hik, hk, hkzero, hne, hloop⟩ :=
        ipv6Loop_before n (i + 1) (by omega)
      · refine .inl ⟨forall_of_first hzero hall, ?_⟩
        rw [hstep, hloop, shownFrom_of_lt w (show i < 8 by omega)]
      · have hlen : k - i = k - (i + 1) + 1 := by omega
        refine .inr ⟨k, by omega, hk, hkzero, forall_of_first hzero hne, ?_⟩
        rw [hstep, hloop, hlen, List.range'_succ, List.flatMap_cons, if_pos (by omega)]
        simp only [List.append_assoc]

/-- There is no slash among the characters for the words. -/
lemma slash_notMem_ipv6Loop : ∀ (n i omitted : ℕ), 0x2f ∉ ipv6Loop w n i omitted
  | 0, _, _ => by simp [ipv6Loop]
  | n + 1, i, omitted => by
    have hword : 0x2f ∉ putn16 (w i).toUInt32 := notMem_of_group rfl (group_shown (w i))
    have hrest := fun o => slash_notMem_ipv6Loop n (i + 1) o
    rw [ipv6Loop]
    split_ifs <;> simp [hword, hrest]

end Loop

/-! ## The text -/

/-- The characters before the slash. -/
lemma takeWhile_networkPrintIpv6 (a : NetdevAddr) :
    (networkPrintIpv6 a).takeWhile (fun c => c ≠ 0x2f) = ipv6Loop a.word 8 0 0 := by
  have hslash := slash_notMem_ipv6Loop a.word 8 0 0
  rw [networkPrintIpv6, List.takeWhile_append_of_pos, List.takeWhile_cons_of_neg (by simp),
    List.append_nil]
  intro c hc
  have hne : c ≠ 0x2f := fun h => hslash (h ▸ hc)
  simpa using hne

/-- Eight words, of which those from `k` up to `j` are zero. -/
lemma map_range_eight (w : ℕ → WORD) {k j : ℕ} (hkj : k ≤ j) (hj : j ≤ 8)
    (hzero : ∀ i, k ≤ i → i < j → w i = 0) :
    ((List.range' 0 k).map w).map UInt16.toNat ++ List.replicate (j - k) 0 ++
      ((List.range' j (8 - j)).map w).map UInt16.toNat =
      (List.range 8).map fun i => (w i).toNat := by
  have hsplit : List.range 8 =
      List.range' 0 k ++ List.range' k (j - k) ++ List.range' j (8 - j) := by
    have hfst : List.range' 0 k ++ List.range' k (j - k) = List.range' 0 j := by
      have h := List.range'_append_1 (s := 0) (m := k) (n := j - k)
      rwa [Nat.zero_add, Nat.add_sub_cancel' hkj] at h
    have hsnd := List.range'_append_1 (s := 0) (m := j) (n := 8 - j)
    rw [Nat.zero_add, Nat.add_sub_cancel' hj] at hsnd
    rw [hfst, hsnd, List.range_eq_range']
  have hrun : ((List.range' k (j - k)).map fun i => (w i).toNat) = List.replicate (j - k) 0 := by
    refine List.eq_replicate_iff.mpr ⟨by simp, fun v hv => ?_⟩
    obtain ⟨i, hi, rfl⟩ := List.mem_map.mp hv
    rw [List.mem_range'_1] at hi
    rw [hzero i hi.1 (by omega)]
    rfl
  rw [hsplit, List.map_append, List.map_append, hrun, List.map_map, List.map_map]
  rfl

/-- The text of an address with its first zero word at `k`. -/
lemma parse_ipv6Loop_of_first {w : ℕ → WORD} {k : ℕ} (hk : k < 8) (hzero : w k = 0) :
    parse ((((List.range' 0 k).map w).flatMap fun v => shown v ++ [colon]) ++
      ipv6Loop w (7 - k) (k + 1) 1) = some ((List.range 8).map fun i => (w i).toNat) ↔
      k ≠ 0 ∧ k ≠ 7 := by
  by_cases hfront : k = 0
  · -- a single colon in front
    subst hfront
    obtain ⟨j, -, -, -, hloop⟩ := ipv6Loop_inside w 6 1 rfl
    refine iff_of_false (fun h => ?_) fun h => h.1 rfl
    rw [hloop, List.range'_zero, List.map_nil, List.flatMap_nil, List.nil_append, shownFrom,
      parse_leading group_shown] at h
    cases h
  · have hne : (List.range' 0 k).map w ≠ [] := by simpa using hfront
    rw [flatMap_append_colon shown hne]
    by_cases hlast : k = 7
    · -- a single colon behind
      subst hlast
      refine iff_of_false (fun h => ?_) fun h => h.2 rfl
      rw [Nat.sub_self, ipv6Loop, List.append_nil, parse_trailing group_shown _ hne] at h
      cases h
    · obtain ⟨n, hn⟩ : ∃ n, 7 - k = n + 1 := ⟨6 - k, by omega⟩
      obtain ⟨j, hij, hj, hrun, hloop⟩ := ipv6Loop_inside w n (k + 1) (by omega)
      have hcount : 8 - (k + (8 - j)) = j - k := by omega
      refine iff_of_true ?_ ⟨hfront, hlast⟩
      rw [hn, hloop, List.append_assoc, List.singleton_append, shownFrom,
        parse_elided group_shown (by simp; omega), List.length_map, List.length_map,
        List.length_range', List.length_range', hcount,
        map_range_eight w (by omega) hj (forall_of_first hzero hrun)]

/-- **The text of an address.** What is shown before the slash is a text of the address iff its
first word is not zero, and neither is its last one alone. -/
theorem network_print_ipv6_iff (a : NetdevAddr) :
    parse ((networkPrintIpv6 a).takeWhile fun c => c ≠ 0x2f) =
        some ((List.range 8).map fun i => (a.word i).toNat) ↔
      a.word 0 ≠ 0 ∧ (a.word 7 = 0 → ∃ i < 7, a.word i = 0) := by
  rw [takeWhile_networkPrintIpv6]
  obtain ⟨hall, hloop⟩ | ⟨k, -, hk, hkzero, hne, hloop⟩ := ipv6Loop_before a.word 8 0 rfl
  · have hlast : a.word 7 ≠ 0 := hall 7 (by omega) (by omega)
    refine iff_of_true ?_ ⟨hall 0 le_rfl (by omega), fun h => absurd h hlast⟩
    rw [hloop, shownFrom, parse_join group_shown (by simp), List.map_map]
    rfl
  · have hwords : ((List.range' 0 (k - 0)).flatMap fun j => shown (a.word j) ++ [colon]) =
        ((List.range' 0 k).map a.word).flatMap fun v => shown v ++ [colon] := by
      rw [List.flatMap_map]
      rfl
    rw [hloop, hwords, parse_ipv6Loop_of_first hk hkzero]
    constructor
    · rintro ⟨hfront, hlast⟩
      exact ⟨hne 0 le_rfl (by omega), fun _ => ⟨k, by omega, hkzero⟩⟩
    · rintro ⟨hfront, hlast⟩
      refine ⟨fun h => hfront (h ▸ hkzero), fun h => ?_⟩
      obtain ⟨i, hi, hizero⟩ := hlast (h ▸ hkzero)
      exact hne i (Nat.zero_le i) (by omega) hizero

/-- The address that `network_create_loopback` makes, with the bytes of a word swapped as it has
them. -/
def ipv6Loopback : NetdevAddr where
  addr := fun i => if i = 14 then 1 else 0
  mask := fun i => if i < 8 then 0xff else 0

/-- `::1` is shown as `:1/64`, and `:1` is no text of an address. -/
theorem network_print_ipv6_loopback :
    networkPrintIpv6 ipv6Loopback = [0x3a, 0x31, 0x2f, 0x36, 0x34] ∧
    parse ((networkPrintIpv6 ipv6Loopback).takeWhile fun c => c ≠ 0x2f) = none := by
  decide

end Korolev
