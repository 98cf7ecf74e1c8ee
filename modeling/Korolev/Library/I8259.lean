import Mathlib.Data.List.Find
import Mathlib.Data.Multiset.Basic
import Mathlib.Logic.Function.Basic
import Mathlib.Tactic.Common

set_option relaxedAutoImplicit false
set_option autoImplicit false

/-!
# The 8259A interrupt controller

A controller has eight request lines, of which the one with the lowest number has priority. A
request is latched until the processor acknowledges it; the line is then in service until the end of
interrupt is signalled, and as long as it is, it holds back the requests of its own and of lower
priority. A PC has two controllers: the output of the second is line 2 of the first.

A controller is set up by two to four initialisation words, which it expects one after the other:
the first is a command with bit 4 set, the others follow at the data port. Behind them the data port
has the mask. Rotating priorities, the special modes and reading registers back are not covered;
commands for them do nothing here.

## Main definitions

* `I8259.Chip` — a controller, with `I8259.Chip.request`, `I8259.Chip.ack` and `I8259.Chip.eoi`.
* `I8259.Chip.command`, `I8259.Chip.data` — writes to its two ports.
* `I8259.Pair` — two controllers, with `I8259.Pair.raise` for an edge on a line and
  `I8259.Pair.acknowledge` for the answer to the processor.
* `I8259.Pair.Idle`, `I8259.Pair.Serves` — no line is in service, or only one and its cascade.

## Main results

* `I8259.Pair.acknowledge_of_idle` — what an idle pair answers.
* `I8259.Pair.serves_serve`, `I8259.Pair.latched_serve` — the pair after it answered.
* `I8259.Pair.Serves.finish_eq` — the ends of interrupt that make a pair idle again.
-/

namespace I8259

/-! ## One controller -/

/-- What a controller takes the next write to its data port for. -/
inductive Expect where
  | icw2 (single needs4 : Bool)
  | icw3 (needs4 : Bool)
  | icw4
  | mask
  deriving DecidableEq

/-- A controller: requests, lines in service, the mask, the first of its eight vectors, its third
initialisation word, whether it ends interrupts by itself, and what it expects. -/
structure Chip where
  irr : ℕ → Bool
  isr : ℕ → Bool
  imr : UInt8
  base : ℕ
  icw3 : UInt8
  autoEoi : Bool
  expect : Expect

namespace Chip

/-- The line has a request that is not masked. -/
def pending (c : Chip) (i : ℕ) : Bool := c.irr i && !c.imr.toBitVec.getLsbD i

/-- The line whose request goes to the processor: the first that has one, unless it or one before
it is in service. -/
def request (c : Chip) : Option ℕ :=
  ((List.range 8).find? fun i => c.pending i || c.isr i).filter fun i => !c.isr i

/-- The request of a line is acknowledged. -/
def ack (c : Chip) (i : ℕ) : Chip :=
  { c with
    irr := Function.update c.irr i false
    isr := if c.autoEoi then c.isr else Function.update c.isr i true }

/-- The end of the interrupt that has priority among those in service. -/
def eoi (c : Chip) : Chip :=
  match (List.range 8).find? c.isr with
  | some i => { c with isr := Function.update c.isr i false }
  | none => c

/-- A write to the command port. -/
def command (c : Chip) (v : UInt8) : Chip :=
  if v &&& 0x10 ≠ 0 then
    { c with
      irr := fun _ => false
      isr := fun _ => false
      imr := 0
      autoEoi := false
      expect := .icw2 (v &&& 2 ≠ 0) (v &&& 1 ≠ 0) }
  else if v &&& 0xf8 = 0x20 then c.eoi
  else c

/-- A write to the data port. -/
def data (c : Chip) (v : UInt8) : Chip :=
  match c.expect with
  | .icw2 single needs4 =>
    { c with
      base := (v &&& 0xf8).toNat
      expect := if single then if needs4 then .icw4 else .mask else .icw3 needs4 }
  | .icw3 needs4 => { c with icw3 := v, expect := if needs4 then .icw4 else .mask }
  | .icw4 => { c with autoEoi := v &&& 2 ≠ 0, expect := .mask }
  | .mask => { c with imr := v }

end Chip

/-! ## Two controllers -/

/-- The two controllers of a PC. The request bit of line 2 of the master is not used; that line is
the output of the slave. -/
structure Pair where
  master : Chip
  slave : Chip

namespace Pair

/-- The master, with the output of the slave at line 2. -/
def front (p : Pair) : Chip :=
  { p.master with irr := Function.update p.master.irr 2 p.slave.request.isSome }

/-- The third initialisation words fit together: the master has a slave at line 2, and the slave
answers for that line. -/
def Cascaded (p : Pair) : Prop := p.master.icw3.toBitVec.getLsbD 2 = true ∧ p.slave.icw3 &&& 7 = 2

instance (p : Pair) : Decidable p.Cascaded := inferInstanceAs (Decidable (_ ∧ _))

/-- An edge on a line, `0` to `7` at the master and `8` to `15` at the slave. -/
def raise (p : Pair) (l : ℕ) : Pair :=
  if l < 8 then { p with master := { p.master with irr := Function.update p.master.irr l true } }
  else { p with slave := { p.slave with irr := Function.update p.slave.irr (l - 8) true } }

/-- The answer to the processor that acknowledges an interrupt: the vector. There is none if there
is no request. -/
def acknowledge (p : Pair) : Option (ℕ × Pair) :=
  match p.front.request with
  | none => none
  | some i =>
    if i = 2 ∧ p.Cascaded then
      p.slave.request.map fun j =>
        (p.slave.base + j, { master := p.master.ack 2, slave := p.slave.ack j })
    else some (p.master.base + i, { p with master := p.master.ack i })

/-! ### What a pair does between two interrupts -/

/-- A request of a line is latched. -/
def latched (p : Pair) (l : ℕ) : Bool := if l < 8 then p.master.irr l else p.slave.irr (l - 8)

/-- A line has a request that no mask holds back. -/
def pendingLine (p : Pair) (l : ℕ) : Bool :=
  if l < 8 then p.master.pending l
  else p.slave.pending (l - 8) && !p.master.imr.toBitVec.getLsbD 2

/-- The lines, the one that has priority first: those of the slave are where the slave is. -/
def order : List ℕ := [0, 1, 8, 9, 10, 11, 12, 13, 14, 15, 3, 4, 5, 6, 7]

/-- The vector of a line. -/
def vector (p : Pair) (l : ℕ) : ℕ := if l < 8 then p.master.base + l else p.slave.base + (l - 8)

/-- The pair after the request of a line was acknowledged. -/
def serve (p : Pair) (l : ℕ) : Pair :=
  if l < 8 then { p with master := p.master.ack l }
  else { master := p.master.ack 2, slave := p.slave.ack (l - 8) }

/-- The controllers are set up to work together, and wait for the end of each interrupt. -/
structure Wired (p : Pair) : Prop where
  cascaded : p.Cascaded
  master_eoi : p.master.autoEoi = false
  slave_eoi : p.slave.autoEoi = false

/-- No line is in service. -/
structure Idle (p : Pair) : Prop where
  master : ∀ i, p.master.isr i = false
  slave : ∀ i, p.slave.isr i = false

/-- Line `l` is in service, and no other but the one that leads to it. -/
structure Serves (p : Pair) (l : ℕ) : Prop where
  master : ∀ i, p.master.isr i = decide (i = if l < 8 then l else 2)
  slave : ∀ i, p.slave.isr i = decide (8 ≤ l ∧ i = l - 8)

section Idle

variable {p : Pair}

/-- Without a line in service the first pending one has the request. -/
lemma request_of_isr {c : Chip} (h : ∀ i, c.isr i = false) :
    c.request = (List.range 8).find? c.pending := by
  have hfun : (fun i => c.pending i || c.isr i) = c.pending := by
    funext i
    rw [h i, Bool.or_false]
  rw [Chip.request, hfun]
  cases (List.range 8).find? c.pending with
  | none => rfl
  | some i => simp [h i]

/-- **What an idle pair answers**: the vector of the line that has priority among those pending.
That line is then in service.

**Proof sketch.** The lines of the master are searched in order. At line 2 the slave is asked, and
its first line is the first of its eight. -/
lemma acknowledge_of_idle (h : p.Idle) (hw : p.Wired) :
    p.acknowledge = (order.find? p.pendingLine).map fun l => (p.vector l, p.serve l) := by
  have hfront : p.front.request = (List.range 8).find? p.front.pending :=
    request_of_isr h.master
  have hslave : p.slave.request = (List.range 8).find? p.slave.pending := request_of_isr h.slave
  -- before and behind line 2
  have hlow : ∀ i, i ≠ 2 → p.front.pending i = p.master.pending i := by
    intro i hi
    simp only [front, Chip.pending, Function.update_of_ne hi]
  have hcascade : p.front.pending 2 =
      (p.slave.request.isSome && !p.master.imr.toBitVec.getLsbD 2) := by
    simp only [front, Chip.pending, Function.update_self]
  have hline : ∀ i, i < 8 → p.pendingLine i = p.master.pending i := fun i hi => if_pos hi
  have hline' : ∀ j, p.pendingLine (8 + j) =
      (p.slave.pending j && !p.master.imr.toBitVec.getLsbD 2) := by
    intro j
    rw [pendingLine, if_neg (by omega), Nat.add_sub_cancel_left]
  have hbefore : [0, 1].find? p.front.pending = [0, 1].find? p.pendingLine := by
    refine List.find?_congr fun i hi => ?_
    simp only [List.mem_cons, List.not_mem_nil, or_false] at hi
    rw [hlow i (by omega), hline i (by omega)]
  have hbehind : [3, 4, 5, 6, 7].find? p.front.pending = [3, 4, 5, 6, 7].find? p.pendingLine := by
    refine List.find?_congr fun i hi => ?_
    simp only [List.mem_cons, List.not_mem_nil, or_false] at hi
    rw [hlow i (by omega), hline i (by omega)]
  have hsplit : List.range 8 = [0, 1] ++ ([2] ++ [3, 4, 5, 6, 7]) := rfl
  have horder : order = [0, 1] ++ ((List.range 8).map (8 + ·) ++ [3, 4, 5, 6, 7]) := rfl
  have hmaster : ∀ l, l ∈ [0, 1] ∨ l ∈ [3, 4, 5, 6, 7] → l < 8 ∧ l ≠ 2 := by
    intro l hl
    simp only [List.mem_cons, List.not_mem_nil, or_false] at hl
    omega
  have hanswer : ∀ l, l < 8 → l ≠ 2 →
      (if l = 2 ∧ p.Cascaded then
        p.slave.request.map fun j =>
          (p.slave.base + j, ({ master := p.master.ack 2, slave := p.slave.ack j } : Pair))
      else some (p.master.base + l, { p with master := p.master.ack l })) =
        some (p.vector l, p.serve l) := by
    intro l hl hne
    rw [if_neg fun hc => hne hc.1, vector, serve, if_pos hl, if_pos hl]
  rw [acknowledge, hfront, hsplit, horder, List.find?_append, List.find?_append,
    List.find?_append, List.find?_append, hbefore, hbehind]
  cases hb : [0, 1].find? p.pendingLine with
  | some l =>
    obtain ⟨hl, hne⟩ := hmaster l (.inl (List.mem_of_find?_eq_some hb))
    exact hanswer l hl hne
  | none =>
    rw [Option.none_or, Option.none_or, List.find?_singleton, hcascade, List.find?_map,
      show p.pendingLine ∘ (8 + ·) = _ from funext hline']
    -- a request behind line 2, if the slave has none
    have htail : (match [3, 4, 5, 6, 7].find? p.pendingLine with
        | none => none
        | some i =>
          if i = 2 ∧ p.Cascaded then
            p.slave.request.map fun j =>
              (p.slave.base + j, ({ master := p.master.ack 2, slave := p.slave.ack j } : Pair))
          else some (p.master.base + i, { p with master := p.master.ack i })) =
        ([3, 4, 5, 6, 7].find? p.pendingLine).map fun l => (p.vector l, p.serve l) := by
      cases hd : [3, 4, 5, 6, 7].find? p.pendingLine with
      | none => rfl
      | some l =>
        obtain ⟨hl, hne⟩ := hmaster l (.inr (List.mem_of_find?_eq_some hd))
        exact hanswer l hl hne
    cases hmask : p.master.imr.toBitVec.getLsbD 2 with
    | true =>
      have hnone : (List.range 8).find? (fun j => p.slave.pending j && !true) = none := by simp
      rw [Bool.not_true, Bool.and_false, if_neg Bool.false_ne_true, ← Bool.not_true, hnone]
      exact htail
    | false =>
      simp only [Bool.not_false, Bool.and_true]
      rw [← hslave]
      cases hs : p.slave.request with
      | none =>
        rw [hs] at htail
        exact htail
      | some j =>
        have hline8 : (p.vector (8 + j), p.serve (8 + j)) =
            (p.slave.base + j, ({ master := p.master.ack 2, slave := p.slave.ack j } : Pair)) := by
          rw [vector, serve, if_neg (by omega), if_neg (by omega), Nat.add_sub_cancel_left]
        rw [Option.isSome_some, if_pos rfl, Option.map_some]
        show (if 2 = 2 ∧ p.Cascaded then some _ else _) = some (p.vector (8 + j), p.serve (8 + j))
        rw [if_pos ⟨rfl, hw.cascaded⟩, hline8]

/-- A line that is served is in service alone. -/
lemma serves_serve (h : p.Idle) (hw : p.Wired) (l : ℕ) : (p.serve l).Serves l := by
  have hm : ∀ k i, (p.master.ack k).isr i = decide (i = k) := by
    intro k i
    simp only [Chip.ack, hw.master_eoi, Bool.false_eq_true, if_false]
    by_cases hik : i = k
    · rw [hik, Function.update_self, decide_eq_true rfl]
    · rw [Function.update_of_ne hik, h.master, decide_eq_false hik]
  have hs : ∀ k i, (p.slave.ack k).isr i = decide (i = k) := by
    intro k i
    simp only [Chip.ack, hw.slave_eoi, Bool.false_eq_true, if_false]
    by_cases hik : i = k
    · rw [hik, Function.update_self, decide_eq_true rfl]
    · rw [Function.update_of_ne hik, h.slave, decide_eq_false hik]
  unfold serve
  by_cases hl : l < 8
  · rw [if_pos hl]
    refine ⟨fun i => ?_, fun i => ?_⟩
    · rw [if_pos hl]
      exact hm l i
    · exact (h.slave i).trans (decide_eq_false fun hc => by omega).symm
  · rw [if_neg hl]
    refine ⟨fun i => ?_, fun i => ?_⟩
    · rw [if_neg hl]
      exact hm 2 i
    · rw [hs]
      exact decide_eq_decide.mpr ⟨fun hi => ⟨by omega, hi⟩, fun hi => hi.2⟩

/-- Only the request of the line is taken. -/
lemma latched_serve (p : Pair) {l k : ℕ} (hk : k ≠ 2) :
    (p.serve l).latched k = (p.latched k && !decide (k = l)) := by
  have hack : ∀ (c : Chip) (a b : ℕ), (c.ack a).irr b = (c.irr b && !decide (b = a)) := by
    intro c a b
    simp only [Chip.ack]
    by_cases hab : b = a
    · rw [hab, Function.update_self, decide_eq_true rfl, Bool.not_true, Bool.and_false]
    · rw [Function.update_of_ne hab, decide_eq_false hab, Bool.not_false, Bool.and_true]
  unfold serve latched
  by_cases hl : l < 8
  · rw [if_pos hl]
    by_cases hk8 : k < 8
    · rw [if_pos hk8, if_pos hk8, hack]
    · rw [if_neg hk8, if_neg hk8, decide_eq_false (by omega), Bool.not_false, Bool.and_true]
  · rw [if_neg hl]
    by_cases hk8 : k < 8
    · rw [if_pos hk8, if_pos hk8, hack, decide_eq_false hk, decide_eq_false (by omega)]
    · rw [if_neg hk8, if_neg hk8, hack]
      congr 2
      exact decide_eq_decide.mpr (by omega)

end Idle

/-! ### The end of an interrupt -/

section Eoi

variable {p : Pair} {l : ℕ}

/-- The end of the only interrupt in service. -/
lemma eoi_of_only {c : Chip} {k : ℕ} (hk : k < 8) (h : ∀ i, c.isr i = decide (i = k)) :
    c.eoi = { c with isr := fun _ => false } := by
  have hfind : (List.range 8).find? c.isr = some k := by
    rw [List.find?_range_eq_some]
    refine ⟨by rw [h, decide_eq_true rfl], List.mem_range.mpr hk, fun j hj => ?_⟩
    rw [h, decide_eq_false (by omega), Bool.not_false]
  rw [Chip.eoi, hfind]
  dsimp only
  congr 1
  funext i
  by_cases hik : i = k
  · rw [hik, Function.update_self]
  · rw [Function.update_of_ne hik, h, decide_eq_false hik]

/-- The end of an interrupt at both controllers, at the slave only for a line of the slave. -/
def finish (p : Pair) (l : ℕ) : Pair :=
  { master := p.master.eoi, slave := if l < 8 then p.slave else p.slave.eoi }

/-- **The ends of an interrupt make the pair idle again**, and change nothing else. -/
lemma Serves.finish_eq (h : p.Serves l) (hl : l < 16) :
    p.finish l = { master := { p.master with isr := fun _ => false },
                   slave := { p.slave with isr := fun _ => false } } := by
  have hm : p.master.eoi = { p.master with isr := fun _ => false } :=
    eoi_of_only (k := if l < 8 then l else 2) (by split_ifs <;> omega) h.master
  rw [finish, hm]
  congr 1
  by_cases hl8 : l < 8
  · rw [if_pos hl8]
    have hnone : p.slave.isr = fun _ => false := by
      funext i
      rw [h.slave, decide_eq_false fun hc => by omega]
    rw [← hnone]
  · rw [if_neg hl8]
    refine eoi_of_only (k := l - 8) (by omega) fun i => ?_
    rw [h.slave]
    exact decide_eq_decide.mpr ⟨fun hi => hi.2, fun hi => ⟨by omega, hi⟩⟩

lemma Serves.finish_idle (h : p.Serves l) (hl : l < 16) : (p.finish l).Idle := by
  rw [h.finish_eq hl]
  exact ⟨fun _ => rfl, fun _ => rfl⟩

/-- An edge is latched. -/
lemma latched_raise (p : Pair) (l k : ℕ) :
    (p.raise l).latched k = (p.latched k || decide (k = l)) := by
  have hset : ∀ (f : ℕ → Bool) (a b : ℕ), Function.update f a true b = (f b || decide (b = a)) := by
    intro f a b
    by_cases hab : b = a
    · rw [hab, Function.update_self, decide_eq_true rfl, Bool.or_true]
    · rw [Function.update_of_ne hab, decide_eq_false hab, Bool.or_false]
  unfold raise latched
  by_cases hl : l < 8
  · rw [if_pos hl]
    by_cases hk : k < 8
    · rw [if_pos hk, if_pos hk]
      exact hset _ _ _
    · rw [if_neg hk, if_neg hk, decide_eq_false (by omega), Bool.or_false]
  · rw [if_neg hl]
    by_cases hk : k < 8
    · rw [if_pos hk, if_pos hk, decide_eq_false (by omega), Bool.or_false]
    · rw [if_neg hk, if_neg hk]
      refine (hset _ _ _).trans ?_
      congr 1
      exact decide_eq_decide.mpr (by omega)

/-- An edge puts no line in or out of service. -/
lemma raise_isr (p : Pair) (k : ℕ) :
    (p.raise k).master.isr = p.master.isr ∧ (p.raise k).slave.isr = p.slave.isr := by
  unfold raise
  split_ifs
  · exact ⟨rfl, rfl⟩
  · exact ⟨rfl, rfl⟩

end Eoi

end Pair

end I8259
