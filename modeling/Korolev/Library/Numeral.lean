import Mathlib.Data.Nat.Digits.Lemmas
import Mathlib.Tactic.Ring

set_option relaxedAutoImplicit false
set_option autoImplicit false

/-!
# Numerals

A numeral in base `b` is a text of digits below `b`, the most significant one first, without zeros
in front. The digits are the characters `0` to `9` and `a` to `z`, so there are numerals in bases up
to 36. Every number has exactly one numeral in each base.

Routines that show a number find its digits from the least significant one on, by division, or from
the most significant one on, by place. The recursion equations for both are here.

## Main definitions

* `Numeral.digit`, `Numeral.digitVal` — the character of a digit and its value.
* `Numeral.value` — the value of a text of digits.
* `Numeral.IsNumeral` — the text is the numeral of a number.
* `Numeral.lowDigits`, `Numeral.numeral` — the digits of a number by division, and its numeral.
* `Numeral.placeDigits` — the digits of a number by place, without the zeros in front.

## Main results

* `Numeral.lowDigits_eq` — one division.
* `Numeral.isNumeral_iff` — the numeral of a number is the only one.
* `Numeral.isNumeral_cons` — a digit at the place in front of a text.
* `Numeral.IsNumeral.length_le` — how long a numeral is.
* `Numeral.placeDigits_eq_numeral_iff` — the digits by place are the numeral iff there are places
  enough.
-/

namespace Numeral

/-! ## Digits -/

/-- The character of a digit. -/
def digit (d : ℕ) : UInt8 := if d < 10 then UInt8.ofNat (0x30 + d) else UInt8.ofNat (0x57 + d)

/-- The value of the character of a digit. -/
def digitVal (c : UInt8) : ℕ := if c ≤ 0x39 then c.toNat - 0x30 else c.toNat - 0x57

lemma digitVal_digit {d : ℕ} (hd : d < 36) : digitVal (digit d) = d := by
  revert d
  decide

/-- The digit `0` is the only one with its character. -/
lemma digit_eq_zero_iff {d : ℕ} (hd : d < 36) : digit d = 0x30 ↔ d = 0 := by
  revert d
  decide

lemma digit_ne_nul {d : ℕ} (hd : d < 36) : digit d ≠ 0 := by
  revert d
  decide

/-! ## Texts -/

/-- The value of a text of digits, read from left to right. -/
def value (b : ℕ) (s : List UInt8) : ℕ := s.foldl (fun v c => b * v + digitVal c) 0

/-- The text `s` is the numeral of `n` in base `b`: digits below `b`, and a zero in front only if it
is the whole text. -/
structure IsNumeral (b n : ℕ) (s : List UInt8) : Prop where
  ne_nil : s ≠ []
  digits : ∀ c ∈ s, ∃ d < b, c = digit d
  lead : s.head? = some 0x30 → s = [0x30]
  value_eq : value b s = n

/-- The value of a text, in the notation for lists of digits. -/
lemma value_eq_ofDigits (b : ℕ) (s : List UInt8) :
    value b s = Nat.ofDigits b (s.reverse.map digitVal) := by
  induction s using List.reverseRecOn with
  | nil => rfl
  | append_singleton s c ih =>
    rw [List.reverse_append, List.reverse_singleton, List.singleton_append, List.map_cons,
      Nat.ofDigits_cons, ← ih, value, List.foldl_append]
    exact Nat.add_comm _ _

/-- A digit in front of a text. -/
lemma value_cons (b : ℕ) (c : UInt8) (s : List UInt8) :
    value b (c :: s) = b ^ s.length * digitVal c + value b s := by
  rw [value_eq_ofDigits, value_eq_ofDigits, List.reverse_cons, List.map_append, Nat.ofDigits_append,
    List.length_map, List.length_reverse, List.map_singleton, Nat.ofDigits_singleton, Nat.add_comm]

/-- **A digit at the place in front.** The text behind it may have zeros in front. -/
lemma isNumeral_cons {b d n : ℕ} {s : List UInt8} (hb : b ≤ 36) (hd : d < b) (hpos : d ≠ 0)
    (hs : ∀ c ∈ s, ∃ e < b, c = digit e) (hn : value b s = n) :
    IsNumeral b (b ^ s.length * d + n) (digit d :: s) := by
  have hd36 : d < 36 := by omega
  refine ⟨List.cons_ne_nil _ _, ?_, ?_, ?_⟩
  · rintro c hc
    rcases List.mem_cons.mp hc with rfl | hc
    · exact ⟨d, hd, rfl⟩
    · exact hs c hc
  · intro hlead
    exact absurd ((digit_eq_zero_iff hd36).mp (Option.some.inj hlead)) hpos
  · rw [value_cons, digitVal_digit hd36, hn]

/-! ## The numeral of a number -/

/-- The digits of a number, the least significant one first. -/
def lowDigits (b n : ℕ) : List ℕ := if n = 0 then [0] else Nat.digits b n

/-- The numeral of a number. -/
def numeral (b n : ℕ) : List UInt8 := ((lowDigits b n).map digit).reverse

/-- The digits of `n` at the places below `o`, the highest one first. Zeros in front are left out,
unless a digit has been shown before. -/
def placeDigits (b n : ℕ) : (o : ℕ) → (shown : Bool) → List UInt8
  | 0, _ => []
  | o + 1, shown =>
    if n / b ^ o % b = 0 ∧ shown = false then placeDigits b n o false
    else digit (n / b ^ o % b) :: placeDigits b n o true

section Base

variable {b : ℕ} (hb : 2 ≤ b)
include hb

/-- **One division** gives the least significant digit, and the number that the others are those of;
there are none if that is `0`. -/
lemma lowDigits_eq (n : ℕ) :
    lowDigits b n = n % b :: if n / b = 0 then [] else lowDigits b (n / b) := by
  rw [lowDigits]
  by_cases hn : n = 0
  · simp [hn]
  · rw [if_neg hn, Nat.digits_def' hb (Nat.pos_of_ne_zero hn)]
    by_cases hdiv : n / b = 0
    · rw [if_pos hdiv, hdiv, Nat.digits_zero]
    · rw [if_neg hdiv, lowDigits, if_neg hdiv]

lemma lowDigits_lt {n d : ℕ} (hd : d ∈ lowDigits b n) : d < b := by
  rw [lowDigits] at hd
  split_ifs at hd with hn
  · rw [List.mem_singleton.mp hd]
    omega
  · exact Nat.digits_lt_base hb hd

lemma length_lowDigits_le {n k : ℕ} (hk : 0 < k) (hn : n < b ^ k) : (lowDigits b n).length ≤ k := by
  rw [lowDigits]
  split_ifs
  · exact hk
  · exact (Nat.digits_length_le_iff hb n).mpr hn

variable (hb36 : b ≤ 36)
include hb36

/-- The characters of digits have their values. -/
lemma map_digitVal_map_digit {l : List ℕ} (hl : ∀ d ∈ l, d < b) :
    (l.map digit).map digitVal = l := by
  rw [List.map_map, List.map_congr_left (g := id) fun d hd => ?_, List.map_id]
  have := hl d hd
  exact digitVal_digit (by omega)

lemma isNumeral_numeral (n : ℕ) : IsNumeral b n (numeral b n) := by
  have hlt : ∀ d ∈ lowDigits b n, d < b := fun d hd => lowDigits_lt hb hd
  refine ⟨?_, ?_, ?_, ?_⟩
  · rw [numeral, lowDigits_eq hb]
    simp
  · intro c hc
    rw [numeral, List.mem_reverse, List.mem_map] at hc
    obtain ⟨d, hd, rfl⟩ := hc
    exact ⟨d, hlt d hd, rfl⟩
  · intro hlead
    by_cases hn : n = 0
    · rw [numeral, lowDigits, if_pos hn]
      rfl
    · -- the digit in front is the last one of the divisions, which is not zero
      have hne : Nat.digits b n ≠ [] := Nat.digits_ne_nil_iff_ne_zero.mpr hn
      have hlast : (Nat.digits b n).getLast hne < b := Nat.digits_lt_base hb (List.getLast_mem hne)
      rw [numeral, lowDigits, if_neg hn, List.head?_reverse, List.getLast?_map,
        List.getLast?_eq_getLast_of_ne_nil hne, Option.map_some, Option.some.injEq,
        digit_eq_zero_iff (by omega)] at hlead
      exact absurd hlead (Nat.getLast_digit_ne_zero b hn)
  · rw [value_eq_ofDigits, numeral, List.reverse_reverse, map_digitVal_map_digit hb hb36 hlt,
      lowDigits]
    split_ifs with hn
    · rw [hn]
      rfl
    · exact Nat.ofDigits_digits b n

/-- **The numeral of a number is the only one.**

**Proof sketch.** The values of the characters of a numeral are digits of the number, the last one
of which is not zero unless it is the only one. Such lists of digits are unique. -/
lemma isNumeral_iff {n : ℕ} {s : List UInt8} : IsNumeral b n s ↔ s = numeral b n := by
  refine ⟨fun h => ?_, fun h => h ▸ isNumeral_numeral hb hb36 n⟩
  have hval : Nat.ofDigits b (s.reverse.map digitVal) = n :=
    (value_eq_ofDigits b s).symm.trans h.value_eq
  by_cases hzero : s = [0x30]
  · have hn : n = 0 := by
      rw [← hval, hzero]
      rfl
    rw [numeral, lowDigits, if_pos hn, hzero]
    rfl
  · have hback : ∀ c ∈ s, digitVal c < b ∧ digit (digitVal c) = c := by
      intro c hc
      obtain ⟨d, hd, rfl⟩ := h.digits c hc
      rw [digitVal_digit (by omega)]
      exact ⟨hd, rfl⟩
    have hlt : ∀ d ∈ s.reverse.map digitVal, d < b := by
      intro d hd
      obtain ⟨c, hc, rfl⟩ := List.mem_map.mp hd
      exact (hback c (List.mem_reverse.mp hc)).1
    have hlast : ∀ hne : s.reverse.map digitVal ≠ [], (s.reverse.map digitVal).getLast hne ≠ 0 := by
      intro hne hlast
      rw [List.getLast_map, List.getLast_reverse] at hlast
      have hhead := (hback _ (List.head_mem h.ne_nil)).2
      rw [hlast] at hhead
      refine hzero (h.lead ?_)
      rw [List.head?_eq_some_head h.ne_nil, ← hhead]
      rfl
    have hdigits := Nat.digits_ofDigits b hb _ hlt hlast
    rw [hval] at hdigits
    have hn : n ≠ 0 := by
      rw [← Nat.digits_ne_nil_iff_ne_zero (b := b), hdigits]
      simpa using h.ne_nil
    have hchars : (s.reverse.map digitVal).map digit = s.reverse := by
      rw [List.map_map, List.map_congr_left (g := id) fun c hc => ?_, List.map_id]
      exact (hback c (List.mem_reverse.mp hc)).2
    rw [numeral, lowDigits, if_neg hn, hdigits, hchars, List.reverse_reverse]

/-- How long a numeral is. -/
lemma IsNumeral.length_le {n k : ℕ} {s : List UInt8} (h : IsNumeral b n s) (hk : 0 < k)
    (hn : n < b ^ k) : s.length ≤ k := by
  rw [(isNumeral_iff hb hb36).mp h, numeral, List.length_reverse, List.length_map]
  exact length_lowDigits_le hb hk hn

/-! ## The digits by place -/

/-- Behind the first digit that is shown, all are. -/
lemma placeDigits_shown (n : ℕ) : ∀ o, (placeDigits b n o true).length = o ∧
    (∀ c ∈ placeDigits b n o true, ∃ d < b, c = digit d) ∧
      value b (placeDigits b n o true) = n % b ^ o
  | 0 => by simp [placeDigits, value, Nat.mod_one]
  | o + 1 => by
    have hlt : n / b ^ o % b < b := Nat.mod_lt _ (by omega)
    obtain ⟨hlen, hdigits, hval⟩ := placeDigits_shown n o
    rw [placeDigits, if_neg fun h => absurd h.2 (by simp)]
    refine ⟨by rw [List.length_cons, hlen], ?_, ?_⟩
    · intro c hc
      rcases List.mem_cons.mp hc with rfl | hc
      · exact ⟨_, hlt, rfl⟩
      · exact hdigits c hc
    · rw [value_cons, hlen, hval, digitVal_digit (by omega), Nat.mod_pow_succ, Nat.add_comm]

/-- Before, the zeros in front are not shown. -/
lemma placeDigits_spec (n : ℕ) : ∀ o, n % b ^ o ≠ 0 →
    IsNumeral b (n % b ^ o) (placeDigits b n o false)
  | 0, h => absurd (Nat.mod_one _) h
  | o + 1, h => by
    have hlt : n / b ^ o % b < b := Nat.mod_lt _ (by omega)
    rw [Nat.mod_pow_succ] at h ⊢
    rw [placeDigits]
    by_cases hd : n / b ^ o % b = 0
    · rw [hd, Nat.mul_zero, Nat.add_zero] at h ⊢
      rw [if_pos ⟨rfl, rfl⟩]
      exact placeDigits_spec n o h
    · obtain ⟨hlen, hdigits, hval⟩ := placeDigits_shown hb hb36 n o
      rw [if_neg fun h => hd h.1, Nat.add_comm]
      have hcons := isNumeral_cons hb36 hlt hd hdigits hval
      rwa [hlen] at hcons

omit hb36 in
/-- If the number has no digit at these places, none is shown. -/
lemma placeDigits_eq_nil (n : ℕ) : ∀ o, n % b ^ o = 0 → placeDigits b n o false = []
  | 0, _ => rfl
  | o + 1, h => by
    have hpos : 0 < b ^ o := Nat.pow_pos (by omega)
    rw [Nat.mod_pow_succ, Nat.add_eq_zero_iff, Nat.mul_eq_zero] at h
    rw [placeDigits, if_pos ⟨h.2.resolve_left hpos.ne', rfl⟩]
    exact placeDigits_eq_nil n o h.1

/-- **The digits by place** are the numeral of a number that is not `0` iff there is a place for
each of its digits. -/
lemma placeDigits_eq_numeral_iff {n : ℕ} (hn : n ≠ 0) (o : ℕ) :
    placeDigits b n o false = numeral b n ↔ n < b ^ o := by
  have hpos : 0 < b ^ o := Nat.pow_pos (by omega)
  constructor
  · intro h
    by_cases hmod : n % b ^ o = 0
    · -- nothing is shown
      rw [placeDigits_eq_nil hb n o hmod] at h
      exact absurd h.symm (isNumeral_numeral hb hb36 n).ne_nil
    · have hval := (placeDigits_spec hb hb36 n o hmod).value_eq
      rw [h, (isNumeral_numeral hb hb36 n).value_eq] at hval
      rw [hval]
      exact Nat.mod_lt _ hpos
  · intro h
    have hmod : n % b ^ o = n := Nat.mod_eq_of_lt h
    have hspec := placeDigits_spec hb hb36 n o
    rw [hmod] at hspec
    exact (isNumeral_iff hb hb36).mp (hspec hn)

end Base

end Numeral
