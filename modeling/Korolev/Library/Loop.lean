import Mathlib.Tactic.Common
import Mathlib.Order.Basic

set_option relaxedAutoImplicit false
set_option autoImplicit false

/-!
# Loops

A loop is its body, which from a state goes either on to another state or out of the loop with a
result. It is run with fuel, one unit for each time its body is entered; that it returns a result
means that some amount of fuel gives it. So a loop that never ends is one that returns no result.

## Main definitions

* `Loop.run` — the loop with an amount of fuel.
* `Loop.Returns` — the loop comes to its end, with a result.

## Main results

* `Loop.returns_next_iff`, `Loop.returns_exit_iff` — one iteration.
* `Loop.run_mono` — more fuel does not change the result.
* `Loop.Returns.unique` — there is one result at most.
* `Loop.exists_returns` — the rule for loops that end: an invariant and a measure.
* `Loop.not_returns` — the rule for loops that do not end: an invariant under which the body goes
  on.
-/

namespace Loop

variable {σ ρ : Type*}

/-- The loop with an amount of fuel: its result, or `none` if the fuel does not suffice. -/
def run (body : σ → σ ⊕ ρ) : (fuel : ℕ) → σ → Option ρ
  | 0, _ => none
  | fuel + 1, s =>
    match body s with
    | .inl s' => run body fuel s'
    | .inr r => some r

/-- The loop comes to its end, with the result `r`. -/
def Returns (body : σ → σ ⊕ ρ) (s : σ) (r : ρ) : Prop := ∃ fuel, run body fuel s = some r

variable {body : σ → σ ⊕ ρ} {s s' : σ} {r r' : ρ}

/-! ## One iteration -/

lemma run_next (h : body s = .inl s') (fuel : ℕ) : run body (fuel + 1) s = run body fuel s' := by
  rw [run, h]

lemma run_exit (h : body s = .inr r) (fuel : ℕ) : run body (fuel + 1) s = some r := by
  rw [run, h]

/-- A loop that goes on returns what it returns from the next state. -/
lemma returns_next_iff (h : body s = .inl s') : Returns body s r ↔ Returns body s' r := by
  constructor
  · rintro ⟨fuel, hrun⟩
    cases fuel with
    | zero => exact absurd hrun (by simp [run])
    | succ fuel =>
      rw [run_next h] at hrun
      exact ⟨fuel, hrun⟩
  · rintro ⟨fuel, hrun⟩
    exact ⟨fuel + 1, by rw [run_next h, hrun]⟩

/-- A loop that is left returns the result it is left with. -/
lemma returns_exit_iff (h : body s = .inr r) : Returns body s r' ↔ r' = r := by
  constructor
  · rintro ⟨fuel, hrun⟩
    cases fuel with
    | zero => exact absurd hrun (by simp [run])
    | succ fuel =>
      rw [run_exit h] at hrun
      exact (Option.some.inj hrun).symm
  · rintro rfl
    exact ⟨1, run_exit h 0⟩

/-- One more iteration in front. -/
lemma Returns.next (h : body s = .inl s') (hret : Returns body s' r) : Returns body s r :=
  (returns_next_iff h).mpr hret

/-- The last iteration. -/
lemma Returns.exit (h : body s = .inr r) : Returns body s r := (returns_exit_iff h).mpr rfl

/-! ## Whole loops -/

/-- More fuel does not change the result. -/
lemma run_mono {fuel fuel' : ℕ} (hle : fuel ≤ fuel') (h : run body fuel s = some r) :
    run body fuel' s = some r := by
  induction fuel generalizing s fuel' with
  | zero => exact absurd h (by simp [run])
  | succ fuel ih =>
    obtain ⟨fuel', rfl⟩ : ∃ m, fuel' = m + 1 := ⟨fuel' - 1, by omega⟩
    cases hbody : body s with
    | inl s₁ =>
      rw [run_next hbody] at h ⊢
      exact ih (by omega) h
    | inr r₁ =>
      rw [run_exit hbody] at h ⊢
      exact h

/-- There is one result at most. -/
lemma Returns.unique (h : Returns body s r) (h' : Returns body s r') : r = r' := by
  obtain ⟨fuel, hrun⟩ := h
  induction fuel generalizing s with
  | zero => exact absurd hrun (by simp [run])
  | succ fuel ih =>
    cases hbody : body s with
    | inl s₁ =>
      rw [run_next hbody] at hrun
      exact ih ((returns_next_iff hbody).mp h') hrun
    | inr r₁ =>
      rw [run_exit hbody] at hrun
      rw [(returns_exit_iff hbody).mp h']
      exact (Option.some.inj hrun).symm

/-- **Loops that end.** If under the invariant the body either goes on, keeps the invariant and
decreases the measure, or leaves the loop with a result that meets the postcondition, then the loop
returns such a result. -/
lemma exists_returns (inv : σ → Prop) (measure : σ → ℕ) (post : ρ → Prop)
    (hstep : ∀ s, inv s → (∃ s', body s = .inl s' ∧ inv s' ∧ measure s' < measure s) ∨
      ∃ r, body s = .inr r ∧ post r) :
    ∀ s, inv s → ∃ r, Returns body s r ∧ post r := by
  intro s
  induction hm : measure s using Nat.strongRecOn generalizing s with
  | ind m ih =>
    intro hs
    obtain ⟨s', hbody, hs', hlt⟩ | ⟨r, hbody, hr⟩ := hstep s hs
    · obtain ⟨r, hret, hr⟩ := ih (measure s') (hm ▸ hlt) s' rfl hs'
      exact ⟨r, Returns.next hbody hret, hr⟩
    · exact ⟨r, Returns.exit hbody, hr⟩

/-- **Loops that do not end.** If under the invariant the body goes on and keeps the invariant, the
loop returns nothing. -/
lemma not_returns (inv : σ → Prop) (hstep : ∀ s, inv s → ∃ s', body s = .inl s' ∧ inv s') :
    ∀ s, inv s → ∀ r, ¬Returns body s r := by
  rintro s hs r ⟨fuel, hrun⟩
  induction fuel generalizing s with
  | zero => exact absurd hrun (by simp [run])
  | succ fuel ih =>
    obtain ⟨s', hbody, hs'⟩ := hstep s hs
    rw [run_next hbody] at hrun
    exact ih s' hs' hrun

end Loop
