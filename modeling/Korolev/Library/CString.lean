import Mathlib.Algebra.Order.Group.Nat
import Mathlib.Tactic.Common

set_option relaxedAutoImplicit false
set_option autoImplicit false

/-!
# C strings

A C string is the memory behind a pointer, read up to its first `0`. Functions such as `strncmp`
compare two of them over at most `n` bytes. This file fixes what it means that two strings agree
over at most `n` bytes, independently of how a comparison routine finds it out, and that a text
stands in memory as a C string.

## Main definitions

* `CStr.IsString` — the C string at a pointer is a text.
* `CStr.strnlen` — the bytes before the first `0`, at most `n`.

* `CStr.EqUpTo` — `p` and `q` are equal as C strings bounded by `n`.
* `CStr.Padded` — behind a `0` the first `n` bytes are all `0`.

## Main results

* `CStr.IsString.unique` — there is one text at a pointer at most.
* `CStr.EqUpTo.symm`, `CStr.EqUpTo.trans` — `EqUpTo n` is an equivalence.
* `CStr.eqUpTo_iff_of_padded` — for padded strings it is equality of the first `n` bytes.
-/

namespace CStr

variable {n : ℕ} {p q r : ℕ → UInt8}

/-! ## Strings -/

/-- The C string at `p` is the text `str`: the bytes of the text, none of them `0`, and a `0` behind
them. -/
structure IsString (p : ℕ → UInt8) (str : List UInt8) : Prop where
  cell : ∀ k (hk : k < str.length), p k = str[k]
  notMem : 0 ∉ str
  terminator : p str.length = 0

lemma IsString.ne_zero {str : List UInt8} (h : IsString p str) {k : ℕ} (hk : k < str.length) :
    p k ≠ 0 := by
  intro h0
  rw [h.cell k hk] at h0
  exact h.notMem (h0 ▸ List.getElem_mem hk)

/-- The terminator is the first `0`. -/
lemma IsString.length_eq {str : List UInt8} (h : IsString p str) {m : ℕ} (hm : p m = 0)
    (hne : ∀ k < m, p k ≠ 0) : str.length = m := by
  rcases lt_trichotomy str.length m with hlt | heq | hgt
  · exact absurd h.terminator (hne _ hlt)
  · exact heq
  · exact absurd hm (h.ne_zero hgt)

/-- There is one text at a pointer at most. -/
lemma IsString.unique {str str' : List UInt8} (h : IsString p str) (h' : IsString p str') :
    str = str' := by
  have hlen : str.length = str'.length := h.length_eq h'.terminator fun k hk => h'.ne_zero hk
  refine List.ext_getElem hlen fun k hk hk' => ?_
  rw [← h.cell k hk, h'.cell k hk']

/-- The empty string. -/
lemma IsString.eq_nil_iff {str : List UInt8} (h : IsString p str) : str = [] ↔ p 0 = 0 := by
  rw [← List.length_eq_zero_iff]
  constructor
  · intro hlen
    rw [← hlen]
    exact h.terminator
  · intro h0
    exact h.length_eq h0 fun k hk => absurd hk (Nat.not_lt_zero k)

/-- The number of bytes before the first `0`, at most `n`. -/
def strnlen (p : ℕ → UInt8) : (n : ℕ) → ℕ
  | 0 => 0
  | n + 1 => if p 0 = 0 then 0 else strnlen (fun k => p (k + 1)) n + 1

/-- What `strnlen` counts: bytes below `n` that are not `0`, up to a `0` or to `n`. -/
lemma strnlen_spec : ∀ (n : ℕ) (p : ℕ → UInt8), strnlen p n ≤ n ∧ (∀ k < strnlen p n, p k ≠ 0) ∧
    (strnlen p n < n → p (strnlen p n) = 0)
  | 0, _ => ⟨le_rfl, fun k hk => absurd hk (Nat.not_lt_zero k), fun h => absurd h (Nat.lt_irrefl 0)⟩
  | n + 1, p => by
    rw [strnlen]
    by_cases h0 : p 0 = 0
    · rw [if_pos h0]
      exact ⟨Nat.zero_le _, fun k hk => absurd hk (Nat.not_lt_zero k), fun _ => h0⟩
    · rw [if_neg h0]
      obtain ⟨hle, hne, hend⟩ := strnlen_spec n fun k => p (k + 1)
      refine ⟨by omega, fun k hk => ?_, fun h => hend (by omega)⟩
      cases k with
      | zero => exact h0
      | succ k => exact hne k (by omega)

/-- Of a string, `strnlen` is the length or the bound. -/
lemma IsString.strnlen_eq {str : List UInt8} (h : IsString p str) (n : ℕ) :
    strnlen p n = min n str.length := by
  obtain ⟨hle, hne, hend⟩ := strnlen_spec n p
  rcases Nat.lt_or_ge (strnlen p n) n with hlt | hge
  · rw [← h.length_eq (hend hlt) hne, Nat.min_eq_right]
    rw [h.length_eq (hend hlt) hne]
    exact hle
  · have hlen : n ≤ str.length := by
      by_contra hgt
      exact hne str.length (by omega) h.terminator
    omega

/-! ## Bounded comparison -/

/-- `p` and `q` are equal as C strings bounded by `n`: they agree at every position below `n`
that no terminator of `p` precedes. -/
def EqUpTo (n : ℕ) (p q : ℕ → UInt8) : Prop := ∀ k < n, (∀ j < k, p j ≠ 0) → p k = q k

instance (n : ℕ) (p q : ℕ → UInt8) : Decidable (EqUpTo n p q) :=
  inferInstanceAs (Decidable (∀ k < n, (∀ j < k, p j ≠ 0) → p k = q k))

/-- Behind a `0`, the first `n` bytes of `p` are all `0`. -/
def Padded (n : ℕ) (p : ℕ → UInt8) : Prop := ∀ j k, j ≤ k → k < n → p j = 0 → p k = 0

/-- Strings that agree on their first `n` bytes are equal as strings bounded by `n`. -/
lemma EqUpTo.of_forall (h : ∀ k < n, p k = q k) : EqUpTo n p q := fun k hk _ => h k hk

/-- A common terminator ends the comparison. -/
lemma EqUpTo.of_terminator {k : ℕ} (h : ∀ j ≤ k, p j = q j) (hk : p k = 0) :
    EqUpTo n p q := by
  intro i _ hi
  by_cases hik : i ≤ k
  · exact h i hik
  · exact absurd hk (hi k (by omega))

/-- Before a terminator of `q`, the bytes of `p` are no terminators either. -/
lemma EqUpTo.ne_zero (h : EqUpTo n p q) {k : ℕ} (hk : k ≤ n) (hq : ∀ j < k, q j ≠ 0) :
    ∀ j < k, p j ≠ 0 := by
  intro j
  induction j using Nat.strong_induction_on with
  | _ j ih =>
    intro hj
    rw [h j (by omega) fun i hi => ih i hi (by omega)]
    exact hq j hj

@[symm] lemma EqUpTo.symm (h : EqUpTo n p q) : EqUpTo n q p := fun k hk hq =>
  (h k hk (h.ne_zero hk.le hq)).symm

@[trans] lemma EqUpTo.trans (h : EqUpTo n p q) (h' : EqUpTo n q r) : EqUpTo n p r := by
  intro k hk hp
  rw [h k hk hp]
  exact h' k hk (h.symm.ne_zero hk.le hp)

/-- Bounded equality depends only on the first `n` bytes. -/
lemma eqUpTo_congr_right (h : ∀ k < n, q k = r k) : EqUpTo n p q ↔ EqUpTo n p r :=
  ⟨fun hpq => hpq.trans (.of_forall h), fun hpr => hpr.trans (.of_forall fun k hk => (h k hk).symm)⟩

/-- Padding depends on the first `n` bytes only. -/
lemma Padded.congr (hp : Padded n p) (heq : ∀ k < n, q k = p k) : Padded n q := by
  intro j k hjk hk h0
  rw [heq k hk]
  exact hp j k hjk hk (by rw [← heq j (by omega), h0])

/-- For padded strings, bounded equality is equality of the first `n` bytes.

**Proof sketch.** Take the first position `m` where the bytes differ. If no earlier byte of `p`
is `0`, bounded equality contradicts the choice of `m`. Otherwise an earlier byte is `0` in both
strings, and padding makes both `0` at `m`. -/
lemma eqUpTo_iff_of_padded (hp : Padded n p) (hq : Padded n q) :
    EqUpTo n p q ↔ ∀ k < n, p k = q k := by
  refine ⟨fun h k => ?_, EqUpTo.of_forall⟩
  induction k using Nat.strong_induction_on with
  | _ k ih =>
    intro hk
    by_cases hz : ∀ j < k, p j ≠ 0
    · exact h k hk hz
    · obtain ⟨j, hj, hpj⟩ : ∃ j < k, p j = 0 := by
        by_contra hcon
        exact hz fun j hj h0 => hcon ⟨j, hj, h0⟩
      have hqj : q j = 0 := by rw [← ih j hj (by omega), hpj]
      rw [hp j k hj.le hk hpj, hq j k hj.le hk hqj]

end CStr
