import Mathlib.Data.Nat.ModEq
import Mathlib.Logic.Function.Basic
import Mathlib.Tactic.Common

set_option relaxedAutoImplicit false
set_option autoImplicit false

/-!
# Cyclic indices

A ring of `n` cells is shared by a producer and a consumer, each with an index that moves one
cell forward at a time, from the last cell back to the first. What is between the two indices is
a queue. This file has the arithmetic of such indices, and the queue as a list.

Indices are natural numbers, and `(a + 1) % n` is the cell behind `a`. An index is described by
its distance from another one: `Ring.slot n a k` is the cell at distance `k` from `a`.

## Main definitions

* `Ring.slot` — the cell at a distance from a given one.
* `Ring.dist` — the distance from one cell forward to another.
* `Ring.window` — the contents of the cells from an index on.

## Main results

* `Ring.slot_inj` — cells at different distances below `n` are different.
* `Ring.dist_slot`, `Ring.slot_dist` — `slot` and `dist` are inverse to each other.
* `Ring.window_push`, `Ring.window_pop` — the queue when one of the indices moves.
-/

namespace Ring

variable {n a b i k l d : ℕ}

/-- The cell at distance `k` from cell `a`. -/
def slot (n a k : ℕ) : ℕ := (a + k) % n

/-- The distance from cell `a` forward to cell `b`. -/
def dist (n a b : ℕ) : ℕ := (b + n - a) % n

lemma slot_lt (h : a < n) (k : ℕ) : slot n a k < n := Nat.mod_lt _ (by omega)

@[simp] lemma slot_zero (h : a < n) : slot n a 0 = a := Nat.mod_eq_of_lt h

/-- One cell further. -/
lemma slot_succ (n a k : ℕ) : (slot n a k + 1) % n = slot n a (k + 1) := by
  rw [slot, slot, Nat.mod_add_mod, Nat.add_assoc]

/-- Distances from the next cell are smaller by one. -/
lemma slot_succ_left (n a k : ℕ) : slot n ((a + 1) % n) k = slot n a (k + 1) := by
  rw [slot, slot, Nat.mod_add_mod]
  congr 1
  omega

/-- Cells at different distances are different. -/
lemma slot_inj (hk : k < n) (hl : l < n) : slot n a k = slot n a l ↔ k = l := by
  refine ⟨fun h => ?_, fun h => by rw [h]⟩
  have hmod : k ≡ l [MOD n] := Nat.ModEq.add_left_cancel' a h
  exact hmod.eq_of_lt_of_lt hk hl

lemma dist_lt (h : a < n) (b : ℕ) : dist n a b < n := Nat.mod_lt _ (by omega)

/-- Going the distance. -/
lemma slot_dist (ha : a < n) (hb : b < n) : slot n a (dist n a b) = b := by
  have hsum : a + (b + n - a) = b + n := by omega
  rw [slot, dist, Nat.add_mod_mod, hsum, Nat.add_mod_right, Nat.mod_eq_of_lt hb]

/-- The distance gone. -/
lemma dist_slot (ha : a < n) (hk : k < n) : dist n a (slot n a k) = k :=
  (slot_inj (dist_lt ha _) hk).mp (slot_dist ha (slot_lt ha k))

/-! ## Queues -/

section Window

variable {α : Type*} {buf : ℕ → α}

/-- The contents of the `d` cells from `a` on. -/
def window (n : ℕ) (buf : ℕ → α) (a d : ℕ) : List α := (List.range d).map fun k => buf (slot n a k)

@[simp] lemma window_zero (n : ℕ) (buf : ℕ → α) (a : ℕ) : window n buf a 0 = [] := rfl

/-- The consumer moves: its cell is the first of the queue. -/
lemma window_pop (ha : a < n) (d : ℕ) :
    window n buf a (d + 1) = buf a :: window n buf ((a + 1) % n) d := by
  simp only [window, List.range_succ_eq_map, List.map_cons, List.map_map, slot_zero ha]
  congr 1
  refine List.map_congr_left fun k _ => ?_
  rw [slot_succ_left]
  rfl

/-- The producer fills the cell behind the queue. -/
lemma window_push (hd : d < n) (x : α) :
    window n (Function.update buf (slot n a d) x) a (d + 1) = window n buf a d ++ [x] := by
  simp only [window, List.range_succ, List.map_append, List.map_cons, List.map_nil,
    Function.update_self]
  congr 1
  refine List.map_congr_left fun k hk => ?_
  have hlt : k < d := List.mem_range.mp hk
  exact Function.update_of_ne (mt (slot_inj (by omega) hd).mp (by omega)) _ _

end Window

end Ring
