import Korolev.Base
import Korolev.Library.Run

set_option relaxedAutoImplicit false
set_option autoImplicit false

/-!
# The timer

The timer interrupt of `dev/timer.c` counts: `ticks2` is the number of interrupts so far, modulo
`2 ^ 32`. `__sleep` computes the value of the counter at which it returns and polls until it is
reached. Both are 32 bits wide and compared as they are, so that a deadline behind the end of the
counter is in the past.

`ticks2` is volatile. `__sleep` reads it once to see whether the timer runs, once for the deadline,
and once for every poll; an interrupt may come between any two of the reads. So a call is a run of
reads and interrupts in any order.

## Main definitions

* `Korolev.Timer`, `Korolev.timerHandler` — the globals and the interrupt handler.
* `Korolev.Sleep`, `Korolev.sleepStep` — a call of `__sleep`, read by read.
* `Korolev.NotEarly` — the call does not return before `n` interrupts.

## Main results

* `Korolev.SleepInv.interrupt`, `Korolev.SleepInv.read` — what an interrupt and a read keep.
* `Korolev.run_early` — a call whose deadline wraps around returns at once.
* `Korolev.sleep_iff` — when no call returns early.
-/

namespace Korolev

/-- The globals of `dev/timer.c`. -/
structure Timer where
  seconds : LONG
  ticks : LONG
  ticks2 : LONG

/-- `timer_handler(regs)` -/
def timerHandler (t : Timer) : Timer :=
  let t := { t with ticks := t.ticks + 1 }
  let t := { t with ticks2 := t.ticks2 + 1 }
  if t.ticks = 100 then { t with seconds := t.seconds + 1, ticks := 0 } else t

lemma timerHandler_ticks2 (t : Timer) : (timerHandler t).ticks2 = t.ticks2 + 1 := by
  rw [timerHandler]
  dsimp only
  split_ifs
  · rfl
  · rfl

/-- Where a call of `__sleep` is: before the test of `ticks2`, before the deadline is computed, in
the loop with a deadline, or behind the loop. -/
inductive SleepPc where
  | test
  | deadline
  | poll (end_ : LONG)
  | done
  deriving DecidableEq

/-- A call of `__sleep`, and the number of timer interrupts handled since it was made. -/
structure Sleep where
  timer : Timer
  pc : SleepPc
  handled : ℕ

/-- What happens next: a timer interrupt, or `__sleep` reads `ticks2`. -/
inductive SleepEvent where
  | interrupt
  | read

/-- `__sleep(ticks)` from one read of `ticks2` to the next. -/
def sleepRead (ticks : LONG) (t : Timer) : SleepPc → SleepPc
  | .test => if t.ticks2 = 0 then .done else .deadline
  | .deadline => .poll (t.ticks2 + ticks)
  | .poll end_ => if end_ > t.ticks2 then .poll end_ else .done
  | .done => .done

/-- One event of a call of `__sleep(ticks)`. -/
def sleepStep (ticks : LONG) (s : Sleep) : SleepEvent → Sleep
  | .interrupt => { s with timer := timerHandler s.timer, handled := s.handled + 1 }
  | .read => { s with pc := sleepRead ticks s.timer s.pc }

/-- A call of `__sleep` when it is made. -/
def Sleep.start (t : Timer) : Sleep := ⟨t, .test, 0⟩

/-- When the call has returned, at least `n` timer interrupts were handled since it was made. -/
def NotEarly (n : LONG) (s : Sleep) : Prop := s.pc = .done → n.toNat ≤ s.handled

/-! ## Calls that are long enough -/

/-- The deadline computed after `c` interrupts is good: it does not wrap around, unless `n`
interrupts were handled already. -/
def GoodDeadline (t₀ : Timer) (n : LONG) (c : ℕ) : Prop :=
  n.toNat ≤ c ∨ t₀.ticks2.toNat + c + n.toNat < 2 ^ 32

/-- The invariant of a call made in the state `t₀`. -/
structure SleepInv (t₀ : Timer) (n : LONG) (s : Sleep) : Prop where
  ticks2 : s.timer.ticks2 = t₀.ticks2 + UInt32.ofNat s.handled
  start : s.pc = .test ∨ s.pc = .deadline → n = 0 ∨ t₀.ticks2.toNat + 2 * n.toNat ≤ 2 ^ 32
  poll : ∀ end_, s.pc = .poll end_ → ∃ c ≤ s.handled,
    end_ = t₀.ticks2 + UInt32.ofNat c + n ∧ GoodDeadline t₀ n c
  done : NotEarly n s

section Inv

variable {t₀ : Timer} {n : LONG} {s : Sleep}

/-- The counter after some interrupts. -/
lemma toNat_ticks2 (t₀ : Timer) (c : ℕ) :
    (t₀.ticks2 + UInt32.ofNat c).toNat = (t₀.ticks2.toNat + c) % 2 ^ 32 := by
  rw [UInt32.toNat_add, UInt32.toNat_ofNat', Nat.add_mod_mod]

/-- A good deadline that is reached. -/
lemma le_of_goodDeadline {c h : ℕ} (hc : c ≤ h) (hgood : GoodDeadline t₀ n c)
    (hreach : ¬t₀.ticks2 + UInt32.ofNat c + n > t₀.ticks2 + UInt32.ofNat h) : n.toNat ≤ h := by
  rcases hgood with hle | hlt
  · omega
  · have hdeadline : (t₀.ticks2 + UInt32.ofNat c + n).toNat = t₀.ticks2.toNat + c + n.toNat := by
      rw [UInt32.toNat_add, toNat_ticks2, Nat.mod_add_mod, Nat.mod_eq_of_lt hlt]
    rw [gt_iff_lt, UInt32.lt_iff_toNat_lt, hdeadline, toNat_ticks2] at hreach
    -- the counter wrapped around only if it passed the deadline
    omega

lemma SleepInv.interrupt (h : SleepInv t₀ n s) : SleepInv t₀ n (sleepStep n s .interrupt) := by
  refine ⟨?_, h.start, fun end_ hpc => ?_, fun hpc => (h.done hpc).trans (Nat.le_succ _)⟩
  · change (timerHandler s.timer).ticks2 = _ + UInt32.ofNat (s.handled + 1)
    rw [timerHandler_ticks2, h.ticks2, UInt32.add_assoc, ofNat_add_one]
  · obtain ⟨c, hc, hend⟩ := h.poll end_ hpc
    exact ⟨c, Nat.le_succ_of_le hc, hend⟩

/-- The counter comes around to `0` behind `n` interrupts only. -/
lemma le_of_ticks2_eq_zero (hne : t₀.ticks2 ≠ 0)
    (hstart : n = 0 ∨ t₀.ticks2.toNat + 2 * n.toNat ≤ 2 ^ 32) {h : ℕ}
    (hzero : t₀.ticks2 + UInt32.ofNat h = 0) : n.toNat ≤ h := by
  have hpos := toNat_ne_zero.mpr hne
  rw [← UInt32.toNat_inj, toNat_ticks2, UInt32.toNat_zero] at hzero
  rcases hstart with rfl | hstart
  · exact Nat.zero_le _
  · omega

lemma goodDeadline_of_start (hstart : n = 0 ∨ t₀.ticks2.toNat + 2 * n.toNat ≤ 2 ^ 32) (c : ℕ) :
    GoodDeadline t₀ n c := by
  rcases hstart with rfl | hstart
  · exact .inl (Nat.zero_le _)
  · by_cases hle : n.toNat ≤ c
    · exact .inl hle
    · exact .inr (by omega)

/-- A read keeps the invariant, wherever the call is. -/
lemma SleepInv.read (hne : t₀.ticks2 ≠ 0) (h : SleepInv t₀ n s) :
    SleepInv t₀ n (sleepStep n s .read) := by
  have hpc : (sleepStep n s .read).pc = sleepRead n s.timer s.pc := rfl
  cases hs : s.pc with
  | test =>
    have hstart := h.start (.inl hs)
    rw [hs, sleepRead] at hpc
    by_cases hzero : s.timer.ticks2 = 0
    · rw [if_pos hzero] at hpc
      rw [h.ticks2] at hzero
      exact ⟨h.ticks2, by simp [hpc], by simp [hpc], fun _ =>
        le_of_ticks2_eq_zero hne hstart hzero⟩
    · rw [if_neg hzero] at hpc
      exact ⟨h.ticks2, fun _ => hstart, by simp [hpc], by simp [NotEarly, hpc]⟩
  | deadline =>
    have hstart := h.start (.inr hs)
    rw [hs, sleepRead] at hpc
    refine ⟨h.ticks2, by simp [hpc], fun end_ hend => ?_, by simp [NotEarly, hpc]⟩
    rw [hpc, SleepPc.poll.injEq] at hend
    exact ⟨s.handled, le_rfl, by rw [← hend, h.ticks2], goodDeadline_of_start hstart _⟩
  | poll end_ =>
    obtain ⟨c, hc, hend, hgood⟩ := h.poll end_ hs
    rw [hs, sleepRead] at hpc
    by_cases hmore : end_ > s.timer.ticks2
    · rw [if_pos hmore, ← hs] at hpc
      exact ⟨h.ticks2, hpc ▸ h.start, fun end' h' => h.poll end' (hpc ▸ h'), fun h' =>
        h.done (hpc ▸ h')⟩
    · rw [if_neg hmore] at hpc
      refine ⟨h.ticks2, by simp [hpc], by simp [hpc], fun _ => ?_⟩
      rw [hend, h.ticks2] at hmore
      exact le_of_goodDeadline hc hgood hmore
  | done =>
    rw [hs, sleepRead] at hpc
    exact ⟨h.ticks2, by simp [hpc], by simp [hpc], fun _ => h.done hs⟩

/-- From a state with the invariant, no call returns early. -/
lemma SleepInv.notEarly_run (hne : t₀.ticks2 ≠ 0) (h : SleepInv t₀ n s) (evs : List SleepEvent) :
    NotEarly n (Run.run (sleepStep n) s evs) := by
  refine (Run.run_invariant_of_forall (I := SleepInv t₀ n) (fun s ev hs => ?_) h evs).done
  cases ev with
  | interrupt => exact hs.interrupt
  | read => exact hs.read hne

/-- The invariant holds at the start of a call that has `n` more values of the counter left. -/
lemma sleepInv_start (hstart : n = 0 ∨ t₀.ticks2.toNat + 2 * n.toNat ≤ 2 ^ 32) :
    SleepInv t₀ n (.start t₀) :=
  ⟨(UInt32.add_zero _).symm, fun _ => hstart, by simp [Sleep.start],
    by simp [NotEarly, Sleep.start]⟩

/-- It holds in the loop of a call whose deadline does not wrap around. -/
lemma sleepInv_poll (h : n = 0 ∨ t₀.ticks2.toNat + n.toNat < 2 ^ 32) :
    SleepInv t₀ n ⟨t₀, .poll (t₀.ticks2 + n), 0⟩ := by
  refine ⟨(UInt32.add_zero _).symm, by simp, fun end_ hend => ?_, by simp [NotEarly]⟩
  rw [SleepPc.poll.injEq] at hend
  refine ⟨0, le_rfl, by rw [← hend]; simp, ?_⟩
  rcases h with rfl | h
  · exact .inl le_rfl
  · exact .inr h

end Inv

/-! ## Calls that are not -/

/-- Some interrupts in a row. -/
lemma run_interrupts (n : LONG) (s : Sleep) (c : ℕ) :
    let s' := Run.run (sleepStep n) s (List.replicate c .interrupt)
    s'.timer.ticks2 = s.timer.ticks2 + UInt32.ofNat c ∧ s'.pc = s.pc ∧
      s'.handled = s.handled + c := by
  induction c generalizing s with
  | zero => exact ⟨(UInt32.add_zero _).symm, rfl, rfl⟩
  | succ c ih =>
    obtain ⟨hticks, hpc, hhandled⟩ := ih (sleepStep n s .interrupt)
    rw [List.replicate_succ, Run.run_cons]
    refine ⟨?_, hpc, ?_⟩
    · rw [hticks]
      change (timerHandler s.timer).ticks2 + _ = _
      rw [timerHandler_ticks2, add_one_add_ofNat]
    · rw [hhandled]
      change s.handled + 1 + c = _
      omega

/-- **A deadline that wraps around is in the past.** With `c` interrupts between the test and the
deadline, and none behind it, the call returns at the first poll. -/
lemma run_early {t₀ : Timer} {n : LONG} (hne : t₀.ticks2 ≠ 0) (c : ℕ)
    (hc : t₀.ticks2.toNat + c < 2 ^ 32) (hwrap : 2 ^ 32 ≤ t₀.ticks2.toNat + c + n.toNat) :
    let s := Run.run (sleepStep n) (.start t₀)
      (.read :: (List.replicate c .interrupt ++ [.read, .read]))
    s.pc = .done ∧ s.handled = c := by
  have htest : sleepStep n (.start t₀) .read = ⟨t₀, .deadline, 0⟩ := by
    simp [sleepStep, sleepRead, Sleep.start, hne]
  obtain ⟨hticks, hpc, hhandled⟩ := run_interrupts n ⟨t₀, .deadline, 0⟩ c
  have hn := n.toNat_lt
  have hpast : ¬t₀.ticks2 + UInt32.ofNat c + n > t₀.ticks2 + UInt32.ofNat c := by
    have hnow : (t₀.ticks2 + UInt32.ofNat c).toNat = t₀.ticks2.toNat + c := toNat_add_ofNat hc
    rw [gt_iff_lt, UInt32.lt_iff_toNat_lt, UInt32.toNat_add _ n, hnow]
    omega
  rw [Run.run_cons, htest, Run.run_append]
  generalize Run.run (sleepStep n) ⟨t₀, .deadline, 0⟩ (List.replicate c .interrupt) = s at *
  simp only [Run.run_cons, Run.run_nil, sleepStep, hpc, sleepRead, hticks, if_neg hpast, hhandled]
  exact ⟨trivial, Nat.zero_add c⟩

/-! ## When no call returns early -/

/-- **Sleeping long enough.** A call of `__sleep(n)`, with the counter not at `0`, never returns
before `n` interrupts were handled, whatever the order of reads and interrupts in the loop, iff `n`
is `0` or the deadline does not wrap around. If interrupts may come before the loop as well, there
have to be another `n` values of the counter left. -/
theorem sleep_iff (t₀ : Timer) (hne : t₀.ticks2 ≠ 0) (n : LONG) :
    ((∀ evs, NotEarly n (Run.run (sleepStep n) (.start t₀) (.read :: .read :: evs))) ↔
      n = 0 ∨ t₀.ticks2.toNat + n.toNat < 2 ^ 32) ∧
    ((∀ evs, NotEarly n (Run.run (sleepStep n) (.start t₀) evs)) ↔
      n = 0 ∨ t₀.ticks2.toNat + 2 * n.toNat ≤ 2 ^ 32) := by
  have hlt := t₀.ticks2.toNat_lt
  have hn := n.toNat_lt
  have hnzero : n ≠ 0 → n.toNat ≠ 0 := toNat_ne_zero.mpr
  refine ⟨⟨fun h => ?_, fun h evs => ?_⟩, ⟨fun h => ?_, fun h evs => ?_⟩⟩
  · by_contra hcon
    obtain ⟨hpos, hwrap⟩ := not_or.mp hcon
    have hnat := hnzero hpos
    have hwrap : 2 ^ 32 ≤ t₀.ticks2.toNat + 0 + n.toNat := by omega
    obtain ⟨hdone, hhandled⟩ := run_early hne 0 hlt hwrap
    have hle := h [.read] hdone
    rw [List.replicate_zero, List.nil_append] at hhandled
    rw [hhandled] at hle
    omega
  · have hloop : Run.run (sleepStep n) (.start t₀) [.read, .read] =
        ⟨t₀, .poll (t₀.ticks2 + n), 0⟩ := by
      simp [Run.run, sleepStep, sleepRead, Sleep.start, hne]
    have hrun := Run.run_append (sleepStep n) (.start t₀) [.read, .read] evs
    rw [hloop, List.cons_append, List.singleton_append] at hrun
    rw [hrun]
    exact (sleepInv_poll h).notEarly_run hne evs
  · by_contra hcon
    obtain ⟨hpos, hwrap⟩ := not_or.mp hcon
    have hnat := hnzero hpos
    -- the first deadline that wraps around
    have hwrap' : 2 ^ 32 ≤
        t₀.ticks2.toNat + (2 ^ 32 - n.toNat - t₀.ticks2.toNat) + n.toNat := by omega
    obtain ⟨hdone, hhandled⟩ := run_early hne _ (by omega) hwrap'
    have hle := h _ hdone
    rw [hhandled] at hle
    omega
  · exact (sleepInv_start h).notEarly_run hne evs

/-- Ten ticks, in the first day. -/
theorem sleep_iff_first_day :
    (8640000 : LONG) ≠ 0 ∧
    ∀ evs, NotEarly 10 (Run.run (sleepStep 10) (.start ⟨86400, 0, 8640000⟩) evs) :=
  ⟨by decide, (sleep_iff ⟨86400, 0, 8640000⟩ (by decide) 10).2.mpr (.inr (by decide))⟩

/-- Ten ticks, when the counter is about to wrap around: the call returns before the first one. -/
theorem sleep_early :
    let s := Run.run (sleepStep 10) (.start ⟨42949672, 95, 0xffffffff⟩) [.read, .read, .read]
    s.pc = .done ∧ s.handled = 0 ∧ ¬NotEarly 10 s := by
  refine ⟨by decide, by decide, fun h => ?_⟩
  have hdone : (Run.run (sleepStep 10) (.start ⟨42949672, 95, 0xffffffff⟩)
      [.read, .read, .read]).pc = .done := by decide
  exact absurd (h hdone) (by decide)

end Korolev
