import Mathlib.Algebra.Order.Group.Multiset
import Mathlib.Tactic.Common

set_option relaxedAutoImplicit false
set_option autoImplicit false

/-!
# Runs of a deterministic step function

A component that is driven from outside is a step function `step : σ → ι → σ`: a state and the
next request give the next state. A run is a list of requests. This file has the vocabulary in
which properties of runs are stated and the rules by which they are proved.

Requests are often restricted by the state they are made in, so "every step of the run meets
`ok`" is a predicate on a start state and a list (`Run.Along`), and the invariant rule takes
`ok` as a side condition of the step.

## Main definitions

* `Run.run` — the state after a list of requests.
* `Run.Along` — every step of the run meets a condition on the state before it and the request.
* `Run.emits` — what the steps of a run put out, one after the other.

## Main results

* `Run.run_invariant_of_forall` — a property kept by every step holds after every run.
* `Run.along_of_invariant` — what an invariant implies at one step holds at every step of a run.
* `Run.along_congr_of_ok` — conditions that agree at every step agree along a run.
* `Run.along_kept_iff_of_ok`, `Run.along_kept_iff` — when a property holds behind every step of a
  run.
* `Run.along_iff_split` — `Along`, read as a statement about every splitting of the run.
* `Run.run_map`, `Run.along_map` — runs of a part of the state.
* `Run.run_sim` — a relation kept by every pair of steps relates the ends of the two runs.
* `Run.read_run` — if every step sets one cell, a cell holds the last value written to it.
* `Run.run_of_not_along` — what holds once a step was not admissible.
* `Run.exists_rounds` — rounds that lower a rank reach the end.
* `Run.balance` — if every step puts out and keeps what it had and took in, so does the run.
* `Run.view_run`, `Run.append_run` — if every step changes what is seen as its output says, so does
  the run.
-/

namespace Run

variable {σ τ ι : Type*}

/-- The state after the requests `ops`, made one after the other from `s`. -/
def run (step : σ → ι → σ) (s : σ) (ops : List ι) : σ := ops.foldl step s

/-- Every step of the run of `ops` from `s` meets `ok`, a condition on the state the step is
taken in and on the request. -/
def Along (step : σ → ι → σ) (ok : σ → ι → Prop) : σ → List ι → Prop
  | _, [] => True
  | s, op :: ops => ok s op ∧ Along step ok (step s op) ops

section Basic

variable (step : σ → ι → σ) (ok : σ → ι → Prop)

@[simp] lemma run_nil (s : σ) : run step s [] = s := rfl

@[simp] lemma run_cons (s : σ) (op : ι) (ops : List ι) :
    run step s (op :: ops) = run step (step s op) ops := rfl

/-- A run of two lists of requests is the second run from the end of the first. -/
lemma run_append (s : σ) (ops ops' : List ι) :
    run step s (ops ++ ops') = run step (run step s ops) ops' := by
  simp [run]

@[simp] lemma along_nil (s : σ) : Along step ok s [] := trivial

@[simp] lemma along_cons (s : σ) (op : ι) (ops : List ι) :
    Along step ok s (op :: ops) ↔ ok s op ∧ Along step ok (step s op) ops := Iff.rfl

/-- A condition holds along a concatenated run iff it holds along both parts. -/
lemma along_append (s : σ) (ops ops' : List ι) :
    Along step ok s (ops ++ ops') ↔
      Along step ok s ops ∧ Along step ok (run step s ops) ops' := by
  induction ops generalizing s with
  | nil => simp
  | cons op ops ih => simp [ih, and_assoc]

/-- Two conditions hold along a run iff each of them does. -/
lemma along_and (ok' : σ → ι → Prop) (s : σ) (ops : List ι) :
    Along step (fun s op => ok s op ∧ ok' s op) s ops ↔
      Along step ok s ops ∧ Along step ok' s ops := by
  induction ops generalizing s with
  | nil => simp
  | cons op ops ih =>
    rw [along_cons, along_cons, along_cons, ih]
    exact and_and_and_comm

/-- A condition holds along a run iff it holds wherever the run is cut before a request. -/
lemma along_iff_split (s : σ) (ops : List ι) :
    Along step ok s ops ↔
      ∀ pre op post, ops = pre ++ op :: post → ok (run step s pre) op := by
  constructor
  · rintro h pre op post rfl
    rw [along_append] at h
    exact h.2.1
  · intro h
    induction ops generalizing s with
    | nil => trivial
    | cons op ops ih =>
      refine ⟨h [] op ops rfl, ih (step s op) fun pre op' post e => ?_⟩
      exact h (op :: pre) op' post (by rw [e]; rfl)

end Basic

section Rules

variable {step : σ → ι → σ} {ok : σ → ι → Prop} {I : σ → Prop}

/-- **The invariant rule.** A property that every step keeps holds after every run.

**Proof sketch.** Induction on the list of requests, the start state generalised. -/
theorem run_invariant_of_forall (hstep : ∀ s op, I s → I (step s op)) {s : σ} (hs : I s)
    (ops : List ι) : I (run step s ops) := by
  induction ops generalizing s with
  | nil => exact hs
  | cons op ops ih => exact ih (hstep s op hs)

/-- The invariant rule for a property that admissible steps keep. -/
theorem run_invariant (hstep : ∀ s op, I s → ok s op → I (step s op)) {s : σ} {ops : List ι}
    (hs : I s) (hok : Along step ok s ops) : I (run step s ops) := by
  induction ops generalizing s with
  | nil => exact hs
  | cons op ops ih => exact ih (hstep s op hs hok.1) hok.2

/-- **The invariant rule, step by step.** If admissible steps keep an invariant, and the
invariant gives `post` at every admissible step, then `post` holds along the run. -/
theorem along_of_invariant {post : σ → ι → Prop}
    (hstep : ∀ s op, I s → ok s op → I (step s op))
    (hpost : ∀ s op, I s → ok s op → post s op) {s : σ} {ops : List ι} (hs : I s)
    (hok : Along step ok s ops) : Along step post s ops := by
  induction ops generalizing s with
  | nil => trivial
  | cons op ops ih => exact ⟨hpost s op hs hok.1, ih (hstep s op hs hok.1) hok.2⟩

/-- A condition that every request meets in every state holds along every run. -/
lemma along_of_forall (h : ∀ s op, ok s op) (s : σ) (ops : List ι) : Along step ok s ops := by
  induction ops generalizing s with
  | nil => trivial
  | cons op ops ih => exact ⟨h s op, ih _⟩

/-- Conditions that agree at admissible steps in states with an invariant agree along runs of
admissible steps. -/
lemma along_congr_of_ok {p q : σ → ι → Prop} (hstep : ∀ s op, I s → ok s op → I (step s op))
    (h : ∀ s op, I s → ok s op → (p s op ↔ q s op)) {s : σ} {ops : List ι} (hs : I s)
    (hok : Along step ok s ops) : Along step p s ops ↔ Along step q s ops := by
  induction ops generalizing s with
  | nil => rfl
  | cons op ops ih =>
    rw [along_cons, along_cons, h s op hs hok.1, ih (hstep s op hs hok.1) hok.2]

/-- Conditions that agree wherever an invariant holds agree along runs. -/
lemma along_congr {p q : σ → ι → Prop} (hstep : ∀ s op, I s → I (step s op))
    (h : ∀ s op, I s → (p s op ↔ q s op)) {s : σ} {ops : List ι} (hs : I s) :
    Along step p s ops ↔ Along step q s ops :=
  along_congr_of_ok (fun s op hs _ => hstep s op hs) (fun s op hs _ => h s op hs) hs
    (along_of_forall (fun _ _ => trivial) s ops)

/-- The step-by-step invariant rule for an invariant that every step keeps. -/
lemma along_of_invariant_of_forall {post : σ → ι → Prop} (hstep : ∀ s op, I s → I (step s op))
    (hpost : ∀ s op, I s → post s op) {s : σ} (hs : I s) (ops : List ι) :
    Along step post s ops :=
  (along_congr hstep (fun s op h => iff_of_true trivial (hpost s op h)) hs).mp
    (along_of_forall (fun _ _ => trivial) s ops)

/-- **When a property is kept.** If, wherever the property holds, the admissible steps that keep it
are those that meet `p`, then it holds behind every step of a run of admissible steps iff all of
them meet `p`. The invariant `I` is kept by every admissible step. -/
lemma along_kept_iff_of_ok {J : σ → Prop} {p : σ → ι → Prop}
    (hstep : ∀ s op, I s → ok s op → I (step s op))
    (h : ∀ s op, I s → ok s op → J s → (J (step s op) ↔ p s op)) {s : σ} {ops : List ι} (hs : I s)
    (hJ : J s) (hok : Along step ok s ops) :
    Along step (fun s op => J (step s op)) s ops ↔ Along step p s ops := by
  induction ops generalizing s with
  | nil => rfl
  | cons op ops ih =>
    rw [along_cons, along_cons, ← h s op hs hok.1 hJ]
    exact and_congr_right fun hJ' => ih (hstep s op hs hok.1) hJ' hok.2

/-- When a property is kept, for an invariant that every step keeps. -/
lemma along_kept_iff {J : σ → Prop} {p : σ → ι → Prop} (hstep : ∀ s op, I s → I (step s op))
    (h : ∀ s op, I s → J s → (J (step s op) ↔ p s op)) {s : σ} (hs : I s) (hJ : J s)
    (ops : List ι) : Along step (fun s op => J (step s op)) s ops ↔ Along step p s ops :=
  along_kept_iff_of_ok (fun s op hs _ => hstep s op hs) (fun s op hs _ => h s op hs) hs hJ
    (along_of_forall (fun _ _ => trivial) s ops)

/-- A condition on the requests alone holds along a run iff every request meets it. -/
lemma along_iff_forall_mem {p : ι → Prop} {s : σ} {ops : List ι} :
    Along step (fun _ op => p op) s ops ↔ ∀ op ∈ ops, p op := by
  induction ops generalizing s with
  | nil => simp
  | cons op ops ih => rw [along_cons, ih, List.forall_mem_cons]

/-- **The simulation rule.** A relation that every admissible pair of steps keeps relates the
ends of the two runs. -/
theorem run_sim {step' : τ → ι → τ} {R : σ → τ → Prop}
    (hstep : ∀ s t op, R s t → ok s op → R (step s op) (step' t op)) {s : σ} {t : τ}
    {ops : List ι} (hst : R s t) (hok : Along step ok s ops) :
    R (run step s ops) (run step' t ops) := by
  induction ops generalizing s t with
  | nil => exact hst
  | cons op ops ih => exact ih (hstep s t op hst hok.1) hok.2

/-- The simulation rule for a relation that every pair of steps keeps. -/
theorem run_sim_of_forall {step' : τ → ι → τ} {R : σ → τ → Prop}
    (hstep : ∀ s t op, R s t → R (step s op) (step' t op)) {s : σ} {t : τ} {ops : List ι}
    (hst : R s t) : R (run step s ops) (run step' t ops) :=
  run_sim (fun s t op h _ => hstep s t op h) hst (along_of_forall (fun _ _ => trivial) s ops)

/-- The run of a part of the state that every step treats on its own. -/
lemma run_map {step' : τ → ι → τ} {f : σ → τ} (hstep : ∀ s op, f (step s op) = step' (f s) op)
    (s : σ) (ops : List ι) : f (run step s ops) = run step' (f s) ops :=
  run_sim_of_forall (R := fun s t => f s = t) (fun s _ op h => (hstep s op).trans (h ▸ rfl)) rfl

/-- A condition on a part of the state that every step treats on its own. -/
lemma along_map {step' : τ → ι → τ} {f : σ → τ} (hstep : ∀ s op, f (step s op) = step' (f s) op)
    (p : τ → ι → Prop) (s : σ) (ops : List ι) :
    Along step (fun s op => p (f s) op) s ops ↔ Along step' p (f s) ops := by
  induction ops generalizing s with
  | nil => rfl
  | cons op ops ih => rw [along_cons, along_cons, ih, hstep]

/-- **Read over writes.** If every step sets the cell its request names and no other, then after a
run a cell holds the last value written to it, or what it held at the start. -/
theorem read_run {κ ν : Type*} [DecidableEq κ] {read : σ → κ → ν} {key : ι → κ} {val : ι → ν}
    (hstep : ∀ s op k, read (step s op) k = if key op = k then val op else read s k)
    (s : σ) (ops : List ι) (k : κ) :
    read (run step s ops) k =
      ((ops.filter fun op => decide (key op = k)).map val).getLastD (read s k) := by
  induction ops generalizing s with
  | nil => rfl
  | cons op ops ih =>
    rw [run_cons, ih, hstep, List.filter_cons]
    by_cases hkey : key op = k
    · rw [if_pos hkey, if_pos (by simpa using hkey), List.map_cons, List.getLastD_cons]
    · rw [if_neg hkey, if_neg (by simpa using hkey)]

/-- **Runs that leave the admissible steps.** If admissible steps keep an invariant, the first other
step brings about `J`, and every step keeps `J`, then `J` holds after every run with such a step. -/
theorem run_of_not_along {J : σ → Prop} (hstep : ∀ s op, I s → ok s op → I (step s op))
    (hleave : ∀ s op, I s → ¬ ok s op → J (step s op)) (hJ : ∀ s op, J s → J (step s op)) {s : σ}
    {ops : List ι} (hs : I s) (hnot : ¬ Along step ok s ops) : J (run step s ops) := by
  induction ops generalizing s with
  | nil => exact (hnot trivial).elim
  | cons op ops ih =>
    by_cases hok : ok s op
    · exact ih (hstep s op hs hok) fun hrest => hnot ⟨hok, hrest⟩
    · exact run_invariant_of_forall hJ (hleave s op hs hok) ops

/-- **The progress rule.** If a round of requests keeps an invariant and lowers a rank wherever the
end is not reached, then enough rounds reach it. -/
theorem exists_rounds {Done : σ → Prop} (rank : σ → ℕ) {round : List ι}
    (hround : ∀ s, I s → ¬ Done s → I (run step s round) ∧ rank (run step s round) < rank s) {s : σ}
    (hs : I s) : ∃ k, Done (run step s (List.replicate k round).flatten) := by
  induction hrank : rank s using Nat.strong_induction_on generalizing s with
  | _ n ih =>
    by_cases hdone : Done s
    · exact ⟨0, hdone⟩
    · obtain ⟨hkept, hless⟩ := hround s hs hdone
      obtain ⟨k, hk⟩ := ih _ (hrank ▸ hless) hkept rfl
      refine ⟨k + 1, ?_⟩
      rw [List.replicate_succ, List.flatten_cons, run_append]
      exact hk

end Rules

/-! ## What a run puts out -/

section Emits

variable {ω : Type*}

/-- What the steps of a run put out, one after the other; `out` is what one step puts out, a
function of the state it is taken in and of the request. -/
def emits (step : σ → ι → σ) (out : σ → ι → List ω) : σ → List ι → List ω
  | _, [] => []
  | s, op :: ops => out s op ++ emits step out (step s op) ops

variable {step : σ → ι → σ} {ok : σ → ι → Prop} {I : σ → Prop} {out out' : σ → ι → List ω}

@[simp] lemma emits_nil (s : σ) : emits step out s [] = [] := rfl

@[simp] lemma emits_cons (s : σ) (op : ι) (ops : List ι) :
    emits step out s (op :: ops) = out s op ++ emits step out (step s op) ops := rfl

/-- What is put out where that depends on the requests alone. -/
lemma emits_eq_flatMap (f : ι → List ω) (s : σ) (ops : List ι) :
    emits step (fun _ op => f op) s ops = ops.flatMap f := by
  induction ops generalizing s with
  | nil => rfl
  | cons op ops ih => rw [emits_cons, ih, List.flatMap_cons]

/-- Two things put out by every step, counted separately. -/
lemma coe_emits_append (s : σ) (ops : List ι) :
    ((emits step (fun s op => out s op ++ out' s op) s ops : List ω) : Multiset ω) =
      (emits step out s ops : Multiset ω) + (emits step out' s ops : Multiset ω) := by
  induction ops generalizing s with
  | nil => rfl
  | cons op ops ih =>
    simp only [emits_cons, ← Multiset.coe_add, ih]
    exact add_add_add_comm _ _ _ _

/-- **The balance rule.** If in every admissible step what is kept and what is put out is what
was there and what came in, then it is so for the run. -/
theorem balance (content : σ → Multiset ω) (hstep : ∀ s op, I s → ok s op → I (step s op))
    (hbal : ∀ s op, I s → ok s op →
      content (step s op) + (out s op : Multiset ω) = content s + (out' s op : Multiset ω))
    {s : σ} {ops : List ι} (hs : I s) (hok : Along step ok s ops) :
    content (run step s ops) + (emits step out s ops : Multiset ω) =
      content s + (emits step out' s ops : Multiset ω) := by
  induction ops generalizing s with
  | nil => rfl
  | cons op ops ih =>
    have hrest := ih (hstep s op hs hok.1) hok.2
    simp only [emits_cons, run_cons, ← Multiset.coe_add]
    calc content (run step (step s op) ops) +
          ((out s op : Multiset ω) + (emits step out (step s op) ops : Multiset ω))
        = (out s op : Multiset ω) + (content (run step (step s op) ops) +
            (emits step out (step s op) ops : Multiset ω)) := add_left_comm _ _ _
      _ = content (step s op) + (out s op : Multiset ω) +
            (emits step out' (step s op) ops : Multiset ω) := by
          rw [hrest, ← add_assoc, add_comm (out s op : Multiset ω)]
      _ = content s + ((out' s op : Multiset ω) +
            (emits step out' (step s op) ops : Multiset ω)) := by
          rw [hbal s op hs hok.1, add_assoc]

/-- **What is seen of a run.** If every admissible step changes what is seen as its output says, one
piece after the other, so does the run. -/
theorem view_run {α : Type*} (view : σ → α) (act : α → ω → α)
    (hstep : ∀ s op, I s → ok s op → I (step s op))
    (hview : ∀ s op, I s → ok s op → view (step s op) = (out s op).foldl act (view s))
    {s : σ} {ops : List ι} (hs : I s) (hok : Along step ok s ops) :
    view (run step s ops) = (emits step out s ops).foldl act (view s) := by
  induction ops generalizing s with
  | nil => rfl
  | cons op ops ih =>
    rw [run_cons, emits_cons, List.foldl_append, ← hview s op hs hok.1]
    exact ih (hstep s op hs hok.1) hok.2

/-- If what is seen grows by what every admissible step puts out, it grows by what the run does. -/
lemma append_run (view : σ → List ω) (hstep : ∀ s op, I s → ok s op → I (step s op))
    (hview : ∀ s op, I s → ok s op → view (step s op) = view s ++ out s op)
    {s : σ} {ops : List ι} (hs : I s) (hok : Along step ok s ops) :
    view (run step s ops) = view s ++ emits step out s ops := by
  have happend : ∀ l l' : List ω, l'.foldl (fun l b => l ++ [b]) l = l ++ l' := fun l l' => by
    rw [List.foldl_append_eq_append, ← List.flatMap_def, List.flatMap_singleton']
  rw [view_run view (fun l b => l ++ [b]) hstep
    (fun s op hs hok => (hview s op hs hok).trans (happend _ _).symm) hs hok, happend]

end Emits

end Run
