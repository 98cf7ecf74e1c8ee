import Mathlib.Data.List.Infix
import Mathlib.Tactic.Common

set_option relaxedAutoImplicit false
set_option autoImplicit false

/-!
# Computations that leave a trace

A computation that may not come to its end, with the events on its way: `Traced ω α` is a list of
events and, if the computation ended, its result. The events before the point where it stopped are
kept, so "no event of this computation is bad" says something of loops that never end as well: it
is asked of every number of iterations.

## Main definitions

* `Traced` — the monad; `Traced.tell` is an event, `Traced.stop` the end of the fuel.
* `Traced.Safe` — all events meet a condition, and so does the result.
* `Traced.Le` — less of the same computation.

## Main results

* `Traced.safe_bind` — the rule for a sequence; with the other `safe` lemmas `simp` computes what a
  program without loops has to meet.
* `Traced.Le.bind`, `Traced.Safe.of_le` — more fuel has more events.
-/

universe u v

/-- The events of a computation, and its result if it ended. -/
structure Traced (ω : Type u) (α : Type v) where
  log : List ω
  result : Option α

namespace Traced

variable {ω : Type u} {α β : Type v}

/-- One computation after the other; behind one that did not end nothing happens. -/
def andThen (x : Traced ω α) (f : α → Traced ω β) : Traced ω β :=
  match x.result with
  | none => ⟨x.log, none⟩
  | some a => ⟨x.log ++ (f a).log, (f a).result⟩

instance : Monad (Traced ω) where
  pure a := ⟨[], some a⟩
  bind := andThen

/-- Some events. -/
def tell (l : List ω) : Traced ω PUnit := ⟨l, some ⟨⟩⟩

/-- The computation does not come to its end. -/
def stop : Traced ω α := ⟨[], none⟩

/-! ## Results -/

@[simp] lemma result_pure (a : α) : (pure a : Traced ω α).result = some a := rfl

@[simp] lemma result_stop : (stop : Traced ω α).result = none := rfl

@[simp] lemma result_tell (l : List ω) : (tell l : Traced ω PUnit.{v + 1}).result = some ⟨⟩ := rfl

@[simp] lemma result_bind (x : Traced ω α) (f : α → Traced ω β) :
    (x >>= f).result = x.result.bind fun a => (f a).result := by
  change (andThen x f).result = _
  rw [andThen]
  cases x.result with
  | none => rfl
  | some a => rfl

@[simp] lemma result_ite {c : Prop} [Decidable c] (x y : Traced ω α) :
    (if c then x else y).result = if c then x.result else y.result := apply_ite result c x y

/-! ## Safety -/

section Safe

variable (P : ω → Prop)

/-- Every event meets `P`, and the result, if there is one, `Q`. -/
def Safe (x : Traced ω α) (Q : α → Prop) : Prop :=
  (∀ e ∈ x.log, P e) ∧ ∀ a, x.result = some a → Q a

variable (Q : α → Prop)

@[simp] lemma safe_pure (a : α) : Safe P (pure a : Traced ω α) Q ↔ Q a := by
  refine ⟨fun h => h.2 a rfl, fun h => ⟨fun e he => absurd he List.not_mem_nil, fun b hb => ?_⟩⟩
  obtain rfl := Option.some.inj hb
  exact h

@[simp] lemma safe_stop : Safe P (stop : Traced ω α) Q :=
  ⟨fun e he => absurd he List.not_mem_nil, fun a ha => by cases ha⟩

@[simp] lemma safe_tell (l : List ω) (R : PUnit.{v + 1} → Prop) :
    Safe P (tell l) R ↔ (∀ e ∈ l, P e) ∧ R ⟨⟩ :=
  and_congr_right fun _ => ⟨fun h => h ⟨⟩ rfl, fun h _ _ => h⟩

/-- **The rule for a sequence.** -/
@[simp] lemma safe_bind (x : Traced ω α) (f : α → Traced ω β) (R : β → Prop) :
    Safe P (x >>= f) R ↔ Safe P x fun a => Safe P (f a) R := by
  change Safe P (andThen x f) R ↔ _
  rw [Safe, Safe, andThen]
  cases hx : x.result with
  | none => simp
  | some a => simp [Safe, or_imp, forall_and, and_assoc]

@[simp] lemma safe_ite {c : Prop} [Decidable c] (x y : Traced ω α) :
    Safe P (if c then x else y) Q ↔ if c then Safe P x Q else Safe P y Q := by
  split_ifs <;> rfl

variable {P Q}

lemma Safe.mono {x : Traced ω α} {R : α → Prop} (h : Safe P x Q) (hQR : ∀ a, Q a → R a) :
    Safe P x R := ⟨h.1, fun a ha => hQR a (h.2 a ha)⟩

/-- Behind a safe computation with a known result. -/
lemma Safe.iff_of_result {x : Traced ω α} {a : α} (h : Safe P x Q) (ha : x.result = some a)
    (R : α → Prop) : Safe P x R ↔ R a := by
  refine ⟨fun h' => h'.2 a ha, fun hR => ⟨h.1, fun b hb => ?_⟩⟩
  obtain rfl := Option.some.inj (hb.symm.trans ha)
  exact hR

end Safe

/-! ## More fuel -/

/-- `x` is `y`, or `y` stopped at some event. -/
def Le (x y : Traced ω α) : Prop := x = y ∨ x.result = none ∧ x.log <+: y.log

lemma Le.refl (x : Traced ω α) : Le x x := .inl rfl

lemma stop_le (x : Traced ω α) : Le stop x := .inr ⟨rfl, List.nil_prefix⟩

/-- Less of the first part or of the second is less of a sequence. -/
lemma Le.bind {x y : Traced ω α} {f g : α → Traced ω β} (h : Le x y) (hfg : ∀ a, Le (f a) (g a)) :
    Le (x >>= f) (y >>= g) := by
  change Le (andThen x f) (andThen y g)
  rcases h with rfl | ⟨hnone, hlog⟩
  · rw [andThen, andThen]
    cases x.result with
    | none => exact .refl _
    | some a =>
      rcases hfg a with heq | ⟨hnone, hlog⟩
      · simp only [heq]
        exact .refl _
      · exact .inr ⟨hnone, (List.prefix_append_right_inj _).mpr hlog⟩
  · refine .inr ?_
    rw [andThen, andThen, hnone]
    refine ⟨rfl, ?_⟩
    cases y.result with
    | none => exact hlog
    | some a => exact hlog.trans (List.prefix_append _ _)

lemma Le.ite {c : Prop} [Decidable c] {x x' y y' : Traced ω α} (h : Le x y) (h' : Le x' y') :
    Le (if c then x else x') (if c then y else y') := by
  split_ifs
  · exact h
  · exact h'

/-- What all of a computation meets, less of it does. -/
lemma Safe.of_le {P : ω → Prop} {Q : α → Prop} {x y : Traced ω α} (hle : Le x y)
    (h : Safe P y Q) : Safe P x Q := by
  rcases hle with rfl | ⟨hnone, hlog⟩
  · exact h
  · refine ⟨fun e he => h.1 e (hlog.subset he), fun a ha => ?_⟩
    rw [hnone] at ha
    cases ha

end Traced
