import Mathlib.Logic.Function.Iterate
import Mathlib.Tactic.Common

set_option relaxedAutoImplicit false
set_option autoImplicit false

/-!
# Following links

Every node of a linked structure names the next one. A walk follows a number of links; where a
link leads outside of the structure it stays where it is, and then it stays for good.

## Main definitions

* `Links.hop` — one link.
* `Links.follow` — a number of links.

## Main results

* `Links.follow_eq_iterate` — a walk whose links lead nowhere else visits the iterates of `next`.
* `Links.follow_congr` — a walk depends on the links of the nodes it passes.
* `Links.follow_mem` — a walk stays in a set that its links do not leave.
-/

namespace Links

variable {α : Type*} {next next' : α → α} {p : α → Prop} [DecidablePred p] {c : α} {t : ℕ}

/-- Follow the link of `c`, unless it leads outside of `p`. -/
def hop (next : α → α) (p : α → Prop) [DecidablePred p] (c : α) : α :=
  if p (next c) then next c else c

/-- Follow `t` links from `c` on. -/
def follow (next : α → α) (p : α → Prop) [DecidablePred p] (c : α) (t : ℕ) : α :=
  (hop next p)^[t] c

@[simp] lemma follow_zero (c : α) : follow next p c 0 = c := rfl

/-- The first link first. -/
lemma follow_succ (c : α) (t : ℕ) : follow next p c (t + 1) = follow next p (hop next p c) t :=
  Function.iterate_succ_apply (hop next p) t c

/-- The last link last. -/
lemma follow_succ_last (c : α) (t : ℕ) :
    follow next p c (t + 1) = hop next p (follow next p c t) :=
  Function.iterate_succ_apply' (hop next p) t c

/-- A walk in two parts. -/
lemma follow_add (c : α) (t r : ℕ) :
    follow next p c (t + r) = follow next p (follow next p c t) r := by
  rw [follow, Nat.add_comm, Function.iterate_add_apply]
  rfl

/-- A walk whose links do not lead outside. -/
lemma follow_eq_iterate (h : ∀ j ≤ t, p (next^[j] c)) : follow next p c t = next^[t] c := by
  induction t with
  | zero => rfl
  | succ t ih =>
    have hp := h (t + 1) (Nat.le_refl _)
    rw [Function.iterate_succ_apply'] at hp ⊢
    rw [follow_succ_last, ih fun j hj => h j (by omega), hop, if_pos hp]

/-- A walk that has arrived where it stays. -/
lemma follow_of_fixed (h : hop next p c = c) (t : ℕ) : follow next p c t = c :=
  Function.iterate_fixed h t

/-- A walk depends on the links of the nodes it passes. -/
lemma follow_congr (h : ∀ j < t, next' (follow next p c j) = next (follow next p c j)) :
    follow next' p c t = follow next p c t := by
  induction t with
  | zero => rfl
  | succ t ih =>
    rw [follow_succ_last, follow_succ_last, ih fun j hj => h j (by omega), hop, h t (by omega)]
    rfl

/-- A walk stays in a set if the links it follows do not lead out of it. -/
lemma follow_mem {S : α → Prop} (hc : S c)
    (hS : ∀ j < t, S (follow next p c j) → p (next (follow next p c j)) →
      S (next (follow next p c j))) : S (follow next p c t) := by
  induction t with
  | zero => exact hc
  | succ t ih =>
    have hlast := ih fun j hj => hS j (by omega)
    rw [follow_succ_last, hop]
    split_ifs with hp
    · exact hS t (by omega) hlast hp
    · exact hlast

end Links
