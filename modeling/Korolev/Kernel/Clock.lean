import Korolev.Dev.Timer
import Korolev.Kernel.Irq
import Korolev.Library.X86

set_option relaxedAutoImplicit false
set_option autoImplicit false

/-!
# The clock

`timer_setup` in `dev/timer.c` programs the timer to raise line 0 a hundred times a second, and
registers `timer_handler`, which counts. The counters are words in the memory of the kernel. So the
clock is right if every edge on line 0 comes to the handler once, whatever else happens on the other
lines meanwhile; an edge that comes while the one before still waits at the controllers is lost.

The handlers of the other lines are any that leave the counters alone, and so are programs.

## Main definitions

* `Korolev.TimerWords`, `Korolev.Machine.timer` — the counters in memory.
* `Korolev.timerIsr`, `Korolev.timerSetup` — the handler and the setup.
* `Korolev.KeepsTimer` — what is asked of the other handlers.

## Main results

* `Korolev.interrupt_irq_mem` — what an interrupt does to memory is what its handler does.
* `Korolev.Irqs.Inv.timer_step` — which events the counters count.
* `Korolev.irq_clock` — the clock shows the number of edges on line 0, but for those that wait.
-/

namespace Korolev

open I8259 X86

/-! ## The functions -/

/-- Where the counters of `dev/timer.c` are. They do not overlap. -/
structure TimerWords where
  seconds : LONG
  ticks : LONG
  ticks2 : LONG
  seconds_ticks : 4 ≤ (seconds - ticks).toNat ∧ 4 ≤ (ticks - seconds).toNat
  seconds_ticks2 : 4 ≤ (seconds - ticks2).toNat ∧ 4 ≤ (ticks2 - seconds).toNat
  ticks_ticks2 : 4 ≤ (ticks - ticks2).toNat ∧ 4 ≤ (ticks2 - ticks).toNat

/-- The counters. -/
def Machine.timer (a : TimerWords) (m : Machine) : Timer :=
  ⟨load32 m.mem a.seconds, load32 m.mem a.ticks, load32 m.mem a.ticks2⟩

/-- The memory with the counters set. -/
def Machine.setTimer (a : TimerWords) (m : Machine) (t : Timer) : Machine :=
  let mem := store32 (store32 m.mem a.seconds t.seconds) a.ticks t.ticks
  { m with mem := store32 mem a.ticks2 t.ticks2 }

/-- `timer_handler`, as it is registered. It does not look at its parameter. -/
def timerIsr (a : TimerWords) : Isr := fun m _ => some (m.setTimer a (timerHandler (m.timer a)))

/-- `IRQ0` -/
def IRQ0 : BYTE := 32

/-- `timer_setup()`: the handlers, the machine, and the ports written to. -/
def timerSetup (a : TimerWords) (handlers : LONG → Option Isr) (m : Machine) :
    (LONG → Option Isr) × Machine × List (WORD × BYTE) :=
  let divisor : WORD := 11931
  let l : BYTE := (divisor &&& 0xFF).toUInt8
  let h : BYTE := ((divisor >>> 8) &&& 0xFF).toUInt8
  (intRegh handlers IRQ0 (timerIsr a), m.setTimer a ⟨0, 0, 0⟩, [(0x43, 0x36), (0x40, l), (0x40, h)])

/-! ## The counters -/

/-- The counters are read back. -/
@[simp] lemma Machine.timer_setTimer (a : TimerWords) (m : Machine) (t : Timer) :
    (m.setTimer a t).timer a = t := by
  obtain ⟨hst, hts⟩ := a.seconds_ticks
  obtain ⟨hs2, h2s⟩ := a.seconds_ticks2
  obtain ⟨ht2, h2t⟩ := a.ticks_ticks2
  rw [timer, setTimer]
  dsimp only
  rw [load32_store32, load32_store32_of_disjoint hs2 h2s, load32_store32_of_disjoint hst hts,
    load32_store32, load32_store32_of_disjoint ht2 h2t, load32_store32]

/-- The counters after some ticks. -/
lemma timerHandler_iterate (n : ℕ) : timerHandler^[n] ⟨0, 0, 0⟩ =
    ⟨UInt32.ofNat (n / 100), UInt32.ofNat (n % 100), UInt32.ofNat n⟩ := by
  induction n with
  | zero => rfl
  | succ n ih =>
    have hnum : (UInt32.ofNat (n % 100 + 1)).toNat = n % 100 + 1 := toNat_ofNat_of_lt (by omega)
    have h100 : (100 : LONG).toNat = 100 := rfl
    rw [Function.iterate_succ_apply', ih, timerHandler]
    dsimp only
    rw [ofNat_add_one, ofNat_add_one]
    by_cases hfull : n % 100 + 1 = 100
    · have hsec : (n + 1) / 100 = n / 100 + 1 := by omega
      have hticks : (n + 1) % 100 = 0 := by omega
      rw [if_pos (by rw [← UInt32.toNat_inj, hnum, h100, hfull]), ofNat_add_one, hsec, hticks]
      rfl
    · have hsec : (n + 1) / 100 = n / 100 := by omega
      have hticks : (n + 1) % 100 = n % 100 + 1 := by omega
      rw [if_neg (by rw [← UInt32.toNat_inj, hnum, h100]; exact hfull), hsec, hticks]

/-! ## What an interrupt does to memory -/

section Mem

variable {handlers : LONG → Option Isr} {gap : ℕ} {x x' : Context} {m m' : Machine} {l : ℕ}
  {outs : List (WORD × BYTE)}

/-- Pushing leaves memory alone. -/
lemma foldl_push_mem (vs : List LONG) : ∀ m : Machine, (vs.foldl Machine.push m).mem = m.mem := by
  induction vs with
  | nil => exact fun _ => rfl
  | cons v vs ih => exact fun m => ih (m.push v)

lemma saveRegs_mem (m : Machine) (c : Cpu) : (saveRegs m c).mem = m.mem := by
  rw [saveRegs, Machine.push, pusha]
  exact foldl_push_mem _ m

lemma enterStub_mem (stub : Stub) (err : Option LONG) (x : Context) (m : Machine) :
    (enterStub stub err x m).mem = m.mem :=
  foldl_push_mem _ m

lemma restoreRegsIrq_mem (m : Machine) (c : Cpu) : (restoreRegsIrq m c).2.mem = m.mem := by
  simp only [restoreRegsIrq, popa]

lemma leaveStub_mem (c : Cpu) (m : Machine) : (leaveStub c m).2.mem = m.mem := by
  simp only [leaveStub]

/-- What `irq_handler` does to memory. -/
lemma irqHandler_mem {regs : ℤ} (h : irqHandler handlers gap m regs = some (m', outs)) :
    (handlers (m.stack (regs + Regs.intNo)) = none ∧ m'.mem = m.mem) ∨
    ∃ handler m₁ arg, handlers (m.stack (regs + Regs.intNo)) = some handler ∧ m₁.mem = m.mem ∧
      handler m₁ arg = some m' := by
  unfold irqHandler at h
  dsimp only at h
  obtain ⟨m₂, hcall, heq⟩ := Option.map_eq_some_iff.mp h
  obtain ⟨rfl, -⟩ := Prod.mk.inj heq
  cases hh : handlers (m.stack (regs + Regs.intNo)) with
  | none =>
    rw [hh] at hcall
    obtain rfl := Option.some.inj hcall
    exact .inl ⟨rfl, rfl⟩
  | some handler =>
    rw [hh] at hcall
    exact .inr ⟨handler, m.copyRegs regs (regs - gap - Regs.size), _, rfl, rfl, hcall⟩

/-- **What an interrupt does to memory** is what its handler does, if there is one. -/
lemma interrupt_irq_mem
    (h : interrupt handlers gap (.irq l) none x m = some ((x', m'), outs)) :
    (handlers (UInt32.ofNat (32 + l)) = none ∧ m'.mem = m.mem) ∨
    ∃ handler m₁ arg m₂, handlers (UInt32.ofNat (32 + l)) = some handler ∧ m₁.mem = m.mem ∧
      handler m₁ arg = some m₂ ∧ m'.mem = m₂.mem := by
  have hnum : (enterStub (.irq l) none x m).stack (enterStub (.irq l) none x m).sp =
      UInt32.ofNat (32 + l) := (enterStub_stack (.irq l) none x m).2.1
  obtain ⟨⟨⟨c₁, m₁⟩, outs₁⟩, hrun, heq⟩ := Option.map_eq_some_iff.mp h
  obtain ⟨⟨m₂, outs₂⟩, hirq, heq₁⟩ := Option.map_eq_some_iff.mp hrun
  have hleave : m'.mem = m₂.mem := by
    have hm₁ : m₁ = (restoreRegsIrq m₂ { x.cpu with ds := 0x10 }).2 :=
      (congrArg (·.1.2) heq₁).symm
    have hm' : m' = (leaveStub c₁ m₁).2 := (congrArg (·.1.2) heq).symm
    rw [hm', leaveStub_mem, hm₁, restoreRegsIrq_mem]
  have hentry : (saveRegs (enterStub (.irq l) none x m) x.cpu).mem = m.mem := by
    rw [saveRegs_mem, enterStub_mem]
  have hcall := irqHandler_mem hirq
  rw [saveRegs_intNo, hnum, hentry] at hcall
  obtain ⟨hnone, hmem⟩ | ⟨handler, m₃, arg, hsome, hmem, hret⟩ := hcall
  · exact .inl ⟨hnone, hleave.trans hmem⟩
  · exact .inr ⟨handler, m₃, arg, m₂, hsome, hmem, hret, hleave⟩

end Mem

/-! ## The clock -/

/-- A handler that leaves the counters alone. -/
def KeepsTimer (a : TimerWords) (handler : Isr) : Prop :=
  ∀ m regs m', handler m regs = some m' → m'.timer a = m.timer a

section Clock

variable {a : TimerWords} {handlers : LONG → Option Isr} {gap : ℕ} {t : Tables}
  {code : ℕ → Option Stub} {addr : Stub → LONG} {s : Irqs}

/-- The handlers of devices, but for that of the timer, leave the counters alone. -/
def OthersKeepTimer (a : TimerWords) (handlers : LONG → Option Isr) : Prop :=
  ∀ l ∈ Pair.order, l ≠ 0 → ∀ handler, handlers (UInt32.ofNat (32 + l)) = some handler →
    KeepsTimer a handler

/-- The counters are in memory. -/
lemma Machine.timer_congr {m m' : Machine} (h : m'.mem = m.mem) : m'.timer a = m.timer a := by
  rw [timer, timer, h]

lemma timerIsr_ownArea (a : TimerWords) : OwnArea (timerIsr a) := by
  intro m regs m' h
  obtain rfl := Option.some.inj h
  exact ⟨rfl, fun _ _ => rfl⟩

/-- The handlers behind `timer_setup`. -/
lemma timerSetup_handlers (a : TimerWords) (handlers : LONG → Option Isr) (m : Machine) {l : ℕ}
    (hl : l ∈ Pair.order) : (timerSetup a handlers m).1 (UInt32.ofNat (32 + l)) =
      if l = 0 then some (timerIsr a) else handlers (UInt32.ofNat (32 + l)) := by
  show Function.update handlers IRQ0.toUInt32 (some (timerIsr a)) _ = _
  by_cases h0 : l = 0
  · rw [if_pos h0, h0]
    exact Function.update_self _ _ _
  · rw [if_neg h0]
    refine Function.update_of_ne (fun heq => h0 ?_) _ _
    have hnum : (UInt32.ofNat (32 + l)).toNat = 32 + l :=
      toNat_ofNat_of_lt (by have := (lt_of_mem_order hl).1; omega)
    have h32 : IRQ0.toUInt32.toNat = 32 := rfl
    rw [heq, h32] at hnum
    omega

/-- The handlers write to their own areas still. -/
lemma IrqsOwnArea.timerSetup (h : IrqsOwnArea handlers) (a : TimerWords) (m : Machine) :
    IrqsOwnArea (timerSetup a handlers m).1 := by
  intro l hl handler hh
  rw [timerSetup_handlers a handlers m hl] at hh
  split_ifs at hh with h0
  · obtain rfl := Option.some.inj hh
    exact timerIsr_ownArea a
  · exact h l hl handler hh

/-- One event and the counters: they go on iff it is the end of a request of line 0. -/
lemma Irqs.Inv.timer_step (h : s.Inv) (hlead : VectorsLead addr t) (hcode : Placed addr code)
    (hothers : OthersKeepTimer a handlers) (m : Machine) {op : IrqEvent}
    (hop : ∀ x m, op = .program x m → m.timer a = s.machine.timer a) :
    (s.step (timerSetup a handlers m).1 gap t code op).machine.timer a =
      (s.handled (timerSetup a handlers m).1 gap t code op).foldl
        (fun c l => if l = 0 then timerHandler c else c) (s.machine.timer a) := by
  cases op with
  | raise l => rfl
  | program x m' =>
    have hstep : s.step (timerSetup a handlers m).1 gap t code (.program x m') =
        if s.serving = none then { s with context := x, machine := m' } else s := rfl
    show _ = s.machine.timer a
    rw [hstep]
    split_ifs
    · exact hop x m' rfl
    · rfl
  | enter =>
    rw [h.enter_eq hlead hcode]
    show _ = s.machine.timer a
    split_ifs
    · cases s.waiting.head? with
      | none => rfl
      | some l => rfl
    · rfl
  | leave =>
    cases hs : s.serving with
    | none =>
      have hsame : s.step (timerSetup a handlers m).1 gap t code .leave = s := by
        simp only [Irqs.step, hs]
      rw [Irqs.handled, hsame, if_pos hs, Irqs.inService, hs]
      rfl
    | some stub =>
      obtain ⟨l, hl, rfl, -⟩ := h.serves _ hs
      have hmine : s.inService = [l] := by rw [Irqs.inService, hs]
      cases hrun : interrupt (timerSetup a handlers m).1 gap (.irq l) none s.context s.machine with
      | none =>
        have hsame : s.step (timerSetup a handlers m).1 gap t code .leave = s := by
          simp only [Irqs.step, hs, hrun]
        rw [Irqs.handled, hsame, if_neg (by rw [hs]; exact Option.some_ne_none _)]
        rfl
      | some r =>
        obtain ⟨⟨x, m'⟩, outs⟩ := r
        have hstep : s.step (timerSetup a handlers m).1 gap t code .leave =
            { pics := outs.foldl picOutb s.pics, serving := none, context := x,
              machine := m' } := by
          simp only [Irqs.step, hs, hrun]
        rw [Irqs.handled, hstep, if_pos rfl, hmine]
        show m'.timer a = if l = 0 then timerHandler (s.machine.timer a) else s.machine.timer a
        obtain ⟨hnone, hmem⟩ | ⟨handler, m₁, arg, m₂, hsome, hmem, hret, hmem'⟩ :=
          interrupt_irq_mem hrun
        · rw [timerSetup_handlers a handlers m hl] at hnone
          have h0 : l ≠ 0 := fun h0 => by
            rw [if_pos h0] at hnone
            exact Option.some_ne_none _ hnone
          rw [if_neg h0, Machine.timer_congr hmem]
        · rw [timerSetup_handlers a handlers m hl] at hsome
          rw [Machine.timer_congr hmem', ← Machine.timer_congr hmem]
          split_ifs at hsome ⊢ with h0
          · obtain rfl := Option.some.inj hsome
            obtain rfl := Option.some.inj hret
            exact Machine.timer_setTimer a m₁ _
          · exact hothers l hl h0 handler hsome m₁ arg m₂ hret

/-- Of the requests handled, those of line 0 count. -/
lemma foldl_timerHandler (ls : List ℕ) : ∀ c : Timer,
    ls.foldl (fun c l => if l = 0 then timerHandler c else c) c = timerHandler^[ls.count 0] c := by
  induction ls with
  | nil => exact fun _ => rfl
  | cons l ls ih =>
    intro c
    rw [List.foldl_cons, ih, List.count_cons]
    by_cases h0 : l = 0
    · rw [if_pos h0, if_pos (by rw [h0]; rfl), Function.iterate_succ_apply]
    · rw [if_neg h0, if_neg (by rw [beq_iff_eq]; exact h0), Nat.add_zero]

/-- At most one request of a line waits, and at most one is handled. -/
lemma Irqs.count_content_le (s : Irqs) (l : ℕ) : s.content.count l ≤ 2 := by
  have hwaiting : s.waiting.count l ≤ 1 :=
    List.nodup_iff_count_le_one.mp (order_nodup.filter _) l
  have hmine : s.inService.count l ≤ 1 := by
    refine List.count_le_length.trans ?_
    unfold Irqs.inService
    split <;> simp
  rw [Irqs.content, Multiset.count_add, Multiset.coe_count, Multiset.coe_count]
  omega

end Clock

/-- **The clock.** After `int_setup` and `timer_setup`, in every run of devices that raise lines,
programs and handlers that leave the counters alone, acknowledgements and returns, `ticks2` is the
number of edges on line 0 that did not come while one before still waited at the controllers, but
for at most two that wait or are being handled; and `seconds` and `ticks` are its hundreds and the
rest.

**Proof sketch.** The requests of line 0 that were handled are those that came in and are there no
more. Each of them runs `timer_handler` once, and nothing else changes the counters. -/
theorem irq_clock {a : TimerWords} {handlers : LONG → Option Isr} {addr : Stub → LONG}
    {code : ℕ → Option Stub} (hcode : Placed addr code) (hown : IrqsOwnArea handlers)
    (hothers : OthersKeepTimer a handlers) (gap : ℕ) (gdtAddr idtAddr : LONG) (before : Tables)
    (p : Pair) (x : Context) (m : Machine) {ops : List IrqEvent}
    (hops : ∀ l, .raise l ∈ ops → l ∈ Pair.order) :
    let t := intSetup gdtAddr idtAddr addr before
    let r := timerSetup a handlers m
    let start : Irqs := ⟨(t.outs ++ r.2.2).foldl picOutb p, none, x, r.2.1⟩
    let step := Irqs.step r.1 gap t code
    Run.Along step (fun s op => ∀ x m, op = .program x m → m.timer a = s.machine.timer a)
      start ops →
    ∃ n, (Run.run step start ops).machine.timer a =
        ⟨UInt32.ofNat (n / 100), UInt32.ofNat (n % 100), UInt32.ofNat n⟩ ∧
      n + (Run.run step start ops).content.count 0 =
        (Run.emits step Irqs.arrived start ops).count 0 ∧
      (Run.run step start ops).content.count 0 ≤ 2 := by
  intro t r start step hprograms
  have hlead : VectorsLead addr t := vectorsLead_intSetup gdtAddr idtAddr addr before
  have hpics : (t.outs ++ r.2.2).foldl picOutb p = t.outs.foldl picOutb p := by
    rw [List.foldl_append]
    rfl
  obtain ⟨hready, hidle, hlatched⟩ := picsReady_intSetup gdtAddr idtAddr addr before p
  rw [← hpics] at hready hidle hlatched
  obtain ⟨hstart, hempty⟩ := irqs_start hready hidle hlatched x r.2.1
  have hraises : Run.Along step (fun _ op => ∀ l, op = .raise l → l ∈ Pair.order) start ops :=
    Run.along_iff_forall_mem.mpr fun op hop l hraise => hops l (hraise ▸ hop)
  have hkept : ∀ s op, Irqs.Inv s → (step s op).Inv :=
    fun s op hs => hs.step hlead hcode (hown.timerSetup a m) op
  have hbalance := Run.balance Irqs.content (fun s op hs _ => hkept s op hs)
    (fun s op hs hop => hs.balance hlead hcode (hown.timerSetup a m) hop) hstart hraises
  have hview := Run.view_run (fun s : Irqs => s.machine.timer a)
    (fun c l => if l = 0 then timerHandler c else c) (fun s op hs _ => hkept s op hs)
    (fun s op hs hop => hs.timer_step hlead hcode hothers m hop) hstart hprograms
  have hzero : start.machine.timer a = ⟨0, 0, 0⟩ := Machine.timer_setTimer a m _
  refine ⟨(Run.emits step (Irqs.handled r.1 gap t code) start ops).count 0, ?_, ?_,
    Irqs.count_content_le _ 0⟩
  · rw [← timerHandler_iterate, ← foldl_timerHandler, ← hzero]
    exact hview
  · rw [hempty, zero_add] at hbalance
    have hcount := congrArg (Multiset.count 0) hbalance
    rw [Multiset.count_add, Multiset.coe_count, Multiset.coe_count] at hcount
    rw [Nat.add_comm]
    exact hcount

/-- The timer raises its line twice while the handler of the first edge runs, so one edge waits and
one is lost; the keyboard waits behind them. -/
theorem irq_clock_three_edges :
    let a : TimerWords := ⟨0x100000, 0x100004, 0x100008, by decide, by decide, by decide⟩
    let addr : Stub → LONG := fun stub => UInt32.ofNat stub.intNo
    let t := intSetup 0x1000 0x2000 addr sampleTables
    let r := timerSetup a (fun _ => some sampleIsr) sampleMachine
    let start : Irqs := ⟨(t.outs ++ r.2.2).foldl picOutb samplePics, none, sampleContext, r.2.1⟩
    let step := Irqs.step r.1 8 t stubAt
    let ops : List IrqEvent := [.program sampleContext (sampleMachine.setTimer a ⟨0, 0, 0⟩),
      .raise 0, .enter, .raise 0, .raise 1, .raise 0, .leave, .enter, .leave, .enter]
    ∃ n, (Run.run step start ops).machine.timer a =
        ⟨UInt32.ofNat (n / 100), UInt32.ofNat (n % 100), UInt32.ofNat n⟩ ∧
      n + (Run.run step start ops).content.count 0 =
        (Run.emits step Irqs.arrived start ops).count 0 ∧
      (Run.run step start ops).content.count 0 ≤ 2 := by
  intro a addr t r start step ops
  have hothers : OthersKeepTimer a fun _ => some sampleIsr := by
    intro l _ _ handler hh m regs m' hret
    obtain rfl := Option.some.inj hh
    obtain rfl := Option.some.inj hret
    rfl
  refine irq_clock (a := a) placed_intNo sampleIsr_irqsOwnArea hothers 8 0x1000 0x2000 sampleTables
    samplePics sampleContext sampleMachine (fun l hl => ?_) ?_
  · simp only [ops, List.mem_cons, reduceCtorEq, IrqEvent.raise.injEq, List.not_mem_nil, or_false,
      false_or] at hl
    obtain rfl | rfl | rfl | rfl := hl
    all_goals decide
  · refine ⟨?_, nofun, nofun, nofun, nofun, nofun, nofun, nofun, nofun, nofun, trivial⟩
    rintro _ _ ⟨⟩
    rfl

end Korolev
