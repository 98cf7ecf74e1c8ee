import Mathlib.Algebra.Order.Group.Multiset
import Mathlib.Data.Multiset.Filter
import Mathlib.Logic.Function.Basic
import Mathlib.Tactic.Common

set_option relaxedAutoImplicit false
set_option autoImplicit false

/-!
# Tables of slots

A table of `n` slots, each free or occupied by a record, is filled and emptied in any order.
Which slot a record is in does not matter to its users: the table stands for the multiset of the
records in it. This file has what happens to that multiset when a slot is taken and when slots
are freed.

## Main definitions

* `Slots.contents` — the records in the first `n` slots.

## Main results

* `Slots.contents_take` — taking a free slot adds one record.
* `Slots.contents_filter` — freeing the slots of some records removes exactly these.
* `Slots.card_contents_eq_iff` — there are `n` records iff no slot is free.
* `Slots.find?_range_cases`, `Slots.foldl_update_apply` — the loops by which a table is searched
  and written.
-/

namespace Slots

variable {β : Type*} {n i : ℕ} {f : ℕ → Option β}

/-- The records in the first `n` slots; a slot that holds `none` is free. -/
def contents (n : ℕ) (f : ℕ → Option β) : Multiset β := ((List.range n).filterMap f : List β)

@[simp] lemma contents_zero (f : ℕ → Option β) : contents 0 f = 0 := rfl

lemma contents_succ (n : ℕ) (f : ℕ → Option β) :
    contents (n + 1) f = contents n f + ((f n).toList : Multiset β) := by
  rw [contents, List.range_succ, List.filterMap_append, ← Multiset.coe_add, contents]
  cases hf : f n with
  | none => simp [hf]
  | some b => simp [hf]

/-- The contents depend on the first `n` slots only. -/
lemma contents_congr {g : ℕ → Option β} (h : ∀ i < n, f i = g i) : contents n f = contents n g := by
  rw [contents, contents]
  refine congrArg _ (List.filterMap_congr fun i hi => h i (List.mem_range.mp hi))

/-- An empty table. -/
lemma contents_eq_zero (h : ∀ i < n, f i = none) : contents n f = 0 := by
  induction n with
  | zero => rfl
  | succ n ih =>
    rw [contents_succ, ih fun i hi => h i (by omega), h n (by omega)]
    rfl

/-- Taking a free slot adds one record.

**Proof sketch.** Induction on the number of slots. The slot is the last one, and the others are
as before, or it is among the others. -/
lemma contents_take (hi : i < n) (hfree : f i = none) (b : β) :
    contents n (Function.update f i (some b)) = b ::ₘ contents n f := by
  induction n with
  | zero => omega
  | succ n ih =>
    rw [contents_succ, contents_succ]
    by_cases hlast : i = n
    · subst hlast
      have hrest : contents i (Function.update f i (some b)) = contents i f :=
        contents_congr fun j hj => Function.update_of_ne (by omega) _ _
      rw [hrest, Function.update_self, hfree, Option.toList_some, Option.toList_none,
        Multiset.coe_singleton, Multiset.coe_nil, add_zero, ← Multiset.singleton_add, add_comm]
    · rw [ih (by omega), Function.update_of_ne (Ne.symm hlast), Multiset.cons_add]

/-- Freeing the slots whose records do not meet `p` removes exactly these records. -/
lemma contents_filter (p : β → Bool) :
    contents n (fun i => (f i).filter p) = (contents n f).filter (fun b => p b) := by
  induction n with
  | zero => rfl
  | succ n ih =>
    rw [contents_succ, contents_succ, ih, Multiset.filter_add]
    congr 1
    cases f n with
    | none => rfl
    | some b =>
      by_cases hb : p b = true
      · rw [Option.filter_some, if_pos hb, Option.toList_some, Multiset.coe_singleton,
          Multiset.filter_singleton, if_pos hb]
      · rw [Option.filter_some, if_neg hb, Option.toList_some, Multiset.coe_singleton,
          Multiset.filter_singleton, if_neg hb]
        rfl

/-- There are at most `n` records, and there are `n` iff no slot is free. -/
lemma card_contents : (contents n f).card ≤ n ∧
    ((contents n f).card = n ↔ ∀ i < n, f i ≠ none) := by
  induction n with
  | zero => simp
  | succ n ih =>
    obtain ⟨hle, hiff⟩ := ih
    rw [contents_succ, Multiset.card_add, Multiset.coe_card]
    cases hf : f n with
    | none =>
      refine ⟨by simpa using hle.trans (Nat.le_succ n), fun h => ?_, fun h => ?_⟩
      · simp only [Option.toList_none, List.length_nil] at h
        omega
      · exact absurd hf (h n (by omega))
    | some b =>
      refine ⟨by simpa using hle, fun h j hj => ?_, fun h => ?_⟩
      · simp only [Option.toList_some, List.length_singleton] at h
        rcases Nat.lt_succ_iff_lt_or_eq.mp hj with hj | rfl
        · exact hiff.mp (by omega) j hj
        · simp [hf]
      · simp only [Option.toList_some, List.length_singleton]
        rw [hiff.mpr fun j hj => h j (by omega)]

/-- There are `n` records iff no slot is free. -/
lemma card_contents_eq_iff : (contents n f).card = n ↔ ∀ i < n, f i ≠ none := card_contents.2

/-! ## Loops over the slots -/

/-- A loop whose iteration `i` writes slot `i`, from what is in it. -/
lemma foldl_update_apply {γ : Type*} (t : ℕ → γ) (g : ℕ → γ → γ) (n i : ℕ) :
    (List.range n).foldl (fun t i => Function.update t i (g i (t i))) t i =
      if i < n then g i (t i) else t i := by
  induction n with
  | zero => simp
  | succ n ih =>
    rw [List.range_succ, List.foldl_append, List.foldl_cons, List.foldl_nil]
    by_cases hi : i = n
    · subst hi
      rw [Function.update_self, ih, if_neg (by omega), if_pos (by omega)]
    · rw [Function.update_of_ne hi, ih]
      exact if_congr (by omega) rfl rfl

/-- A search for the first slot with a property: it ends at that slot, or there is none. -/
lemma find?_range_cases (n : ℕ) (p : ℕ → Prop) [DecidablePred p] :
    (∃ i < n, p i ∧ (∀ j < i, ¬p j) ∧ (List.range n).find? (fun i => p i) = some i) ∨
    ((∀ i < n, ¬p i) ∧ (List.range n).find? (fun i => p i) = none) := by
  cases hfind : (List.range n).find? fun i => p i with
  | some i =>
    obtain ⟨hp, hi, hbefore⟩ := List.find?_range_eq_some.mp hfind
    refine .inl ⟨i, List.mem_range.mp hi, by simpa using hp, fun j hj => ?_, rfl⟩
    simpa using hbefore j hj
  | none =>
    refine .inr ⟨fun i hi => ?_, rfl⟩
    simpa using List.find?_range_eq_none.mp hfind i hi

end Slots
