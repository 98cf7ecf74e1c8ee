import Korolev.Kernel.Gates
import Korolev.Kernel.Interrupt

set_option relaxedAutoImplicit false
set_option autoImplicit false

/-!
# The interrupt stubs

An interrupt enters the kernel through one of the stubs of `kernel/inta.asm`. The processor has
pushed the flags, the code segment and the instruction pointer, and for some exceptions an error
code; the stub pushes a `0` in its place where it expects none, and the number of the interrupt. The
common parts save the registers, call `isr_handler` or `irq_handler`, restore the registers, skip
two words and return. Of the data segments only `ds` is saved; its value goes to the others, too.

The interrupted program runs at the kernel's own privilege, so the stack stays the same.

Which exceptions come with an error code is the processor's affair and differs between processors;
it is a parameter.

## Main definitions

* `Korolev.Stub.pushes` — what a stub pushes.
* `Korolev.Context` — what the interrupted program had in the processor.
* `Korolev.irqHandler`, `Korolev.irqCommonStub` — the way of the requests of devices.
* `Korolev.interrupt` — an interrupt, from the processor's pushes to `iret`.

## Main results

* `Korolev.irqCommonStub_restores` — the registers are restored after the request of a device.
* `Korolev.interrupt_isSome_iff` — when an interrupt returns.
* `Korolev.interrupt_transparent_iff` — when the interrupted program goes on as it was.
-/

namespace Korolev

/-! ## The functions -/

/-- The stubs defined by `ISR_ERRCODE`, which push nothing in place of an error code. -/
def isrErrcode : List ℕ := [8, 10, 11, 12, 13, 14]

/-- The number a stub pushes. The lines of the controllers are 32 and up. -/
def Stub.intNo : Stub → ℕ
  | .isr n => n
  | .irq n => 32 + n

/-- The stub expects the processor to have pushed an error code. -/
def Stub.ExpectsCode : Stub → Prop
  | .isr n => n ∈ isrErrcode
  | .irq _ => False

instance : (stub : Stub) → Decidable stub.ExpectsCode
  | .isr n => inferInstanceAs (Decidable (n ∈ isrErrcode))
  | .irq _ => inferInstanceAs (Decidable False)

/-- What a stub pushes before it goes on to its common part. -/
def Stub.pushes (stub : Stub) : List LONG :=
  if stub.ExpectsCode then [UInt32.ofNat stub.intNo] else [0, UInt32.ofNat stub.intNo]

/-- `irq_handler(regs)`, with `regs` at the given address: the machine, and the ports written to.
The number is not checked, and it is read again after the handler. -/
def irqHandler (handlers : LONG → Option Isr) (gap : ℕ) (m : Machine) (regs : ℤ) :
    Option (Machine × List (WORD × BYTE)) :=
  let arg := regs - gap - Regs.size
  let m' := match handlers (m.stack (regs + Regs.intNo)) with
    | none => some m
    | some handler => handler (m.copyRegs regs arg) arg
  m'.map fun m =>
    (m, if 40 ≤ m.stack (regs + Regs.intNo) then [(0xA0, 0x20), (0x20, 0x20)] else [(0x20, 0x20)])

/-- The last part of `irq_common_stub`: the data segment is popped through `ebx`, then `popa`. -/
def restoreRegsIrq (m : Machine) (c : Cpu) : Cpu × Machine :=
  let ebx := m.stack m.sp
  popa { m with sp := m.sp + 1 } { c with ds := ebx.toUInt16, ebx := ebx }

/-- `irq_common_stub`, up to and including `popa`, with the ports written to. -/
def irqCommonStub (handlers : LONG → Option Isr) (gap : ℕ) (c : Cpu) (m : Machine) :
    Option ((Cpu × Machine) × List (WORD × BYTE)) :=
  let m := saveRegs m c
  let c := { c with ds := 0x10 }
  (irqHandler handlers gap m m.sp).map fun r => (restoreRegsIrq r.1 c, r.2)

/-- The common part a stub goes on to. -/
def Stub.common (stub : Stub) (handlers : LONG → Option Isr) (gap : ℕ) (c : Cpu) (m : Machine) :
    Option ((Cpu × Machine) × List (WORD × BYTE)) :=
  match stub with
  | .isr _ => (isrCommonStub handlers gap c m).map fun r => (r, [])
  | .irq _ => irqCommonStub handlers gap c m

/-- What the interrupted program has in the processor: its registers, and what the processor pushes
of them. -/
structure Context where
  cpu : Cpu
  es : WORD
  fs : WORD
  gs : WORD
  eip : LONG
  cs : LONG
  eflags : LONG
  deriving DecidableEq

/-- The context with all data segments those of `ds`. -/
def Context.oneSegment (x : Context) : Context :=
  { x with es := x.cpu.ds, fs := x.cpu.ds, gs := x.cpu.ds }

/-- The stack after the processor entered a stub, and the stub pushed what it pushes. -/
def enterStub (stub : Stub) (err : Option LONG) (x : Context) (m : Machine) : Machine :=
  ([x.eflags, x.cs, x.eip] ++ err.toList ++ stub.pushes).foldl Machine.push m

/-- `add esp, 8` and `iret`. The other segment registers have been loaded with the word popped for
`ds`. -/
def leaveStub (c : Cpu) (m : Machine) : Context × Machine :=
  let sp := m.sp + 2
  (⟨c, c.ds, c.ds, c.ds, m.stack sp, m.stack (sp + 1), m.stack (sp + 2)⟩, { m with sp := sp + 3 })

/-- An interrupt through a stub, with the error code the processor pushed, if it did: the context
the program goes on in, the machine, and the ports written to. There is no result if the handler
does not return. -/
def interrupt (handlers : LONG → Option Isr) (gap : ℕ) (stub : Stub) (err : Option LONG)
    (x : Context) (m : Machine) : Option ((Context × Machine) × List (WORD × BYTE)) :=
  (stub.common handlers gap x.cpu (enterStub stub err x m)).map fun r =>
    (leaveStub r.1.1 r.1.2, r.2)

/-! ## Requests of devices -/

section Irq

variable {handlers : LONG → Option Isr} {gap : ℕ}

/-- Both common parts restore the registers in the same way. -/
lemma restoreRegsIrq_eq (m : Machine) (c : Cpu) : restoreRegsIrq m c = restoreRegs m c := rfl

/-- Through `irq_handler` a handler that writes to its own area leaves the saved frame alone. Which
controllers are told of the end depends on the number that was pushed. -/
lemma irqHandler_keepsFrom {m m' : Machine} {regs : ℤ} {outs : List (WORD × BYTE)}
    (hown : ∀ handler, handlers (m.stack (regs + Regs.intNo)) = some handler → OwnArea handler)
    (h : irqHandler handlers gap m regs = some (m', outs)) :
    KeepsFrom regs m m' ∧ outs = if 40 ≤ m.stack (regs + Regs.intNo) then
      [(0xA0, 0x20), (0x20, 0x20)] else [(0x20, 0x20)] := by
  have hkeep : KeepsFrom regs m m' := by
    unfold irqHandler at h
    dsimp only at h
    obtain ⟨m₁, hrun, heq⟩ := Option.map_eq_some_iff.mp h
    obtain ⟨rfl, -⟩ := Prod.mk.inj heq
    cases hh : handlers (m.stack (regs + Regs.intNo)) with
    | none =>
      rw [hh] at hrun
      obtain rfl := Option.some.inj hrun
      exact ⟨rfl, fun _ _ => rfl⟩
    | some handler =>
      rw [hh] at hrun
      have hown' := hown handler hh _ _ _ hrun
      refine ⟨hown'.sp_eq, fun a ha => ?_⟩
      rw [hown'.stack_eq a (by omega)]
      exact if_neg (by omega)
  have hnum : m'.stack (regs + Regs.intNo) = m.stack (regs + Regs.intNo) :=
    hkeep.stack_eq _ (by rw [Regs.intNo]; omega)
  refine ⟨hkeep, ?_⟩
  obtain ⟨m₁, -, heq⟩ := Option.map_eq_some_iff.mp h
  obtain ⟨rfl, rfl⟩ := Prod.mk.inj heq
  rw [hnum]

/-- **The other stub restores every register**, too. -/
lemma irqCommonStub_restores {c c' : Cpu} {m m' : Machine} {outs : List (WORD × BYTE)}
    (hown : ∀ handler, handlers (m.stack m.sp) = some handler → OwnArea handler)
    (h : irqCommonStub handlers gap c m = some ((c', m'), outs)) :
    c' = c ∧ KeepsFrom m.sp m m' ∧
    outs = if 40 ≤ m.stack m.sp then [(0xA0, 0x20), (0x20, 0x20)] else [(0x20, 0x20)] := by
  obtain ⟨hsp, hframe, habove⟩ := saveRegs_frame m c
  obtain ⟨⟨m₁, outs₁⟩, hrun, heq⟩ := Option.map_eq_some_iff.mp h
  obtain ⟨hkeep, houts⟩ := irqHandler_keepsFrom (by rw [saveRegs_intNo]; exact hown) hrun
  rw [saveRegs_intNo] at houts
  rw [hsp] at hkeep
  have hsp₁ : m₁.sp = m.sp - 9 := hkeep.sp_eq.trans hsp
  have hframe₁ : Frame c m₁.stack m₁.sp := by
    rw [hsp₁]
    exact hframe.of_keepsFrom hkeep.stack_eq
  dsimp only at heq
  rw [restoreRegsIrq_eq, restoreRegs_eq hframe₁] at heq
  simp only [Prod.mk.injEq] at heq
  obtain ⟨⟨rfl, rfl⟩, rfl⟩ := heq
  refine ⟨rfl, ⟨?_, fun a ha => ?_⟩, houts⟩
  · show m₁.sp + 9 = m.sp
    omega
  · exact (hkeep.stack_eq a (by omega)).trans (habove a ha)

end Irq

/-! ## Interrupts -/

section Interrupt

variable {handlers : LONG → Option Isr} {gap : ℕ} {stub : Stub} {err : Option LONG} {x x' : Context}
  {m m' : Machine} {outs : List (WORD × BYTE)}

/-- Either common part restores the registers. -/
lemma Stub.common_restores {c c' : Cpu}
    (hown : ∀ handler, handlers (m.stack m.sp) = some handler → OwnArea handler)
    (h : stub.common handlers gap c m = some ((c', m'), outs)) : c' = c ∧ KeepsFrom m.sp m m' := by
  cases stub with
  | isr n =>
    obtain ⟨⟨c₁, m₁⟩, hrun, heq⟩ := Option.map_eq_some_iff.mp h
    simp only [Prod.mk.injEq] at heq
    obtain ⟨⟨rfl, rfl⟩, -⟩ := heq
    exact isrCommonStub_restores hown hrun
  | irq n =>
    obtain ⟨hcpu, hkeep, -⟩ := irqCommonStub_restores hown h
    exact ⟨hcpu, hkeep⟩

/-- The words on the stack behind what was pushed, and the number on top. -/
lemma enterStub_stack (stub : Stub) (err : Option LONG) (x : Context) (m : Machine) :
    (enterStub stub err x m).sp = m.sp - 3 - err.toList.length - stub.pushes.length ∧
    (enterStub stub err x m).stack (enterStub stub err x m).sp = UInt32.ofNat stub.intNo ∧
    (enterStub stub err x m).stack (m.sp - 1) = x.eflags ∧
    (enterStub stub err x m).stack (m.sp - 2) = x.cs ∧
    (enterStub stub err x m).stack (m.sp - 3) = x.eip ∧
    ∀ a, m.sp ≤ a → (enterStub stub err x m).stack a = m.stack a := by
  obtain ⟨hsp, habove, hword⟩ :=
    foldl_push ([x.eflags, x.cs, x.eip] ++ err.toList ++ stub.pushes) m
  have hlen : ([x.eflags, x.cs, x.eip] ++ err.toList ++ stub.pushes).length =
      3 + err.toList.length + stub.pushes.length := by
    simp only [List.length_append, List.length_cons, List.length_nil]
  have hlast : ([x.eflags, x.cs, x.eip] ++ err.toList ++ stub.pushes)[2 + err.toList.length +
      stub.pushes.length]? = some (UInt32.ofNat stub.intNo) := by
    cases err with
    | none =>
      unfold Stub.pushes
      split_ifs <;> rfl
    | some code =>
      unfold Stub.pushes
      split_ifs <;> rfl
  have hsp' : (enterStub stub err x m).sp = m.sp - 3 - err.toList.length - stub.pushes.length := by
    refine hsp.trans ?_
    rw [hlen]
    push_cast
    omega
  have htop : m.sp - 3 - err.toList.length - stub.pushes.length =
      m.sp - 1 - ((2 + err.toList.length + stub.pushes.length : ℕ) : ℤ) := by
    push_cast
    omega
  refine ⟨hsp', ?_, ?_, ?_, ?_, habove⟩
  · rw [hsp', htop]
    exact hword _ _ hlast
  · exact (congrArg _ (by omega)).trans (hword 0 x.eflags rfl)
  · exact (congrArg _ (by omega)).trans (hword 1 x.cs rfl)
  · exact (congrArg _ (by omega)).trans (hword 2 x.eip rfl)

/-- An interrupt that returns: with one word for the error code, and only then, everything but the
segments is as it was; the stack pointer is off by the words too many or too few. -/
lemma interrupt_spec
    (hown : ∀ handler, handlers (UInt32.ofNat stub.intNo) = some handler → OwnArea handler)
    (h : interrupt handlers gap stub err x m = some ((x', m'), outs)) :
    m'.sp = m.sp + 2 - err.toList.length - stub.pushes.length ∧
    (x'.cpu = x.cpu ∧ x'.oneSegment = x') ∧
    (err.toList.length + stub.pushes.length = 2 → x' = x.oneSegment ∧ KeepsFrom m.sp m m') := by
  obtain ⟨hsp, hnum, hflags, hcs, heip, habove⟩ := enterStub_stack stub err x m
  obtain ⟨⟨⟨c₁, m₁⟩, outs₁⟩, hrun, heq⟩ := Option.map_eq_some_iff.mp h
  obtain ⟨rfl, hkeep⟩ := Stub.common_restores (by rw [hnum]; exact hown) hrun
  simp only [leaveStub, Prod.mk.injEq] at heq
  obtain ⟨⟨rfl, rfl⟩, rfl⟩ := heq
  have hsp₁ := hkeep.sp_eq
  have hback : m₁.sp + 2 + 3 = m.sp + 2 - err.toList.length - stub.pushes.length := by omega
  refine ⟨hback, ⟨rfl, rfl⟩, fun htwo => ?_⟩
  have hm : m₁.sp + 2 = m.sp - 3 := by omega
  have hat : ∀ k : ℤ, m.sp - 3 ≤ k → m₁.stack k = (enterStub stub err x m).stack k :=
    fun k hk => hkeep.stack_eq k (by omega)
  refine ⟨?_, ?_, fun a ha => ?_⟩
  · rw [hm, hat _ le_rfl, hat _ (by omega), hat _ (by omega), heip,
      show m.sp - 3 + 1 = m.sp - 2 by omega, show m.sp - 3 + 2 = m.sp - 1 by omega, hcs, hflags,
      Context.oneSegment]
  · show m₁.sp + 2 + 3 = m.sp
    omega
  · exact (hat a (by omega)).trans (habove a ha)

/-- There is one word for the error code iff the stub is right about the processor. -/
lemma pushes_length_iff : err.toList.length + stub.pushes.length = 2 ↔
    (err.isSome ↔ stub.ExpectsCode) := by
  unfold Stub.pushes
  cases err <;> split_ifs with hcode <;> simp [hcode]

/-- The controllers that are told of the end of the request of a device. -/
lemma interrupt_irq_outs {l : ℕ}
    (hown : ∀ handler, handlers (UInt32.ofNat (32 + l)) = some handler → OwnArea handler)
    (h : interrupt handlers gap (.irq l) err x m = some ((x', m'), outs)) :
    outs = if 40 ≤ UInt32.ofNat (32 + l) then [(0xA0, 0x20), (0x20, 0x20)]
      else [(0x20, 0x20)] := by
  obtain ⟨-, hnum, -⟩ := enterStub_stack (.irq l) err x m
  obtain ⟨⟨⟨c₁, m₁⟩, outs₁⟩, hrun, heq⟩ := Option.map_eq_some_iff.mp h
  obtain ⟨-, -, houts⟩ := irqCommonStub_restores (by rw [hnum]; exact hown) hrun
  obtain ⟨-, rfl⟩ := Prod.mk.inj heq
  rw [houts, hnum]
  rfl

/-- What the handler of a stub is called with: the machine with a copy of the saved registers, and
where the copy is. -/
def Stub.call (stub : Stub) (gap : ℕ) (err : Option LONG) (x : Context) (m : Machine) :
    Machine × ℤ :=
  let m := saveRegs (enterStub stub err x m) x.cpu
  (m.copyRegs m.sp (m.sp - gap - Regs.size), m.sp - gap - Regs.size)

/-- The handler of the stub returns, if it has one. -/
def HandlerReturns (handlers : LONG → Option Isr) (gap : ℕ) (stub : Stub) (err : Option LONG)
    (x : Context) (m : Machine) : Prop :=
  ∀ handler, handlers (UInt32.ofNat stub.intNo) = some handler →
    (handler (stub.call gap err x m).1 (stub.call gap err x m).2).isSome

/-- **When an interrupt returns**: when its handler does. -/
lemma interrupt_isSome_iff (hnum : stub.intNo < 256) :
    (interrupt handlers gap stub err x m).isSome ↔ HandlerReturns handlers gap stub err x m := by
  obtain ⟨-, htop, -⟩ := enterStub_stack stub err x m
  have hint : (saveRegs (enterStub stub err x m) x.cpu).stack
      ((saveRegs (enterStub stub err x m) x.cpu).sp + Regs.intNo) = UInt32.ofNat stub.intNo := by
    rw [saveRegs_intNo, htop]
  have hlt : UInt32.ofNat stub.intNo < 256 := by
    rw [UInt32.lt_iff_toNat_lt, UInt32.toNat_ofNat', Nat.mod_eq_of_lt (by omega)]
    exact hnum
  rw [interrupt, Option.isSome_map]
  unfold HandlerReturns
  cases stub with
  | isr n =>
    simp only [Stub.common, isrCommonStub, Option.isSome_map, isrHandler, hint]
    cases handlers (UInt32.ofNat (Stub.isr n).intNo) with
    | none => simp
    | some handler => simp [if_pos hlt, Stub.call]
  | irq n =>
    simp only [Stub.common, irqCommonStub, Option.isSome_map, irqHandler, hint]
    cases handlers (UInt32.ofNat (Stub.irq n).intNo) with
    | none => simp
    | some handler => simp [Stub.call]

/-- **When an interrupted program goes on as it was.** Take any stub, any error code that the
processor pushes or does not push, any registered handler that writes to its own parameters and
below only, and any state of the program. The interrupt returns iff its handler does, and then the
program finds all registers, its instruction pointer, its flags, its stack pointer and its stack as
they were iff the processor pushed an error code exactly where the stub expects one, and the data
segments of the program were all the same.

**Proof sketch.** The common part gives back the stack as the stub left it. Two words are skipped:
the number and the error code, or what stands in its place. If there is one word too many or too
few, the stack pointer is off by one. -/
theorem interrupt_transparent_iff (hnum : stub.intNo < 256)
    (hown : ∀ handler, handlers (UInt32.ofNat stub.intNo) = some handler → OwnArea handler) :
    ((interrupt handlers gap stub err x m).isSome ↔ HandlerReturns handlers gap stub err x m) ∧
    ∀ x' m' outs, interrupt handlers gap stub err x m = some ((x', m'), outs) →
      ((x' = x ∧ KeepsFrom m.sp m m') ↔
        ((err.isSome ↔ stub.ExpectsCode) ∧ x.es = x.cpu.ds ∧ x.fs = x.cpu.ds ∧
          x.gs = x.cpu.ds)) := by
  refine ⟨interrupt_isSome_iff hnum, fun x' m' outs h => ?_⟩
  obtain ⟨hsp, ⟨-, hseg⟩, hback⟩ := interrupt_spec hown h
  rw [← pushes_length_iff]
  constructor
  · rintro ⟨rfl, hkeep⟩
    have hm : m'.sp = m.sp := hkeep.sp_eq
    refine ⟨by omega, ?_, ?_, ?_⟩
    · exact congrArg Context.es hseg.symm
    · exact congrArg Context.fs hseg.symm
    · exact congrArg Context.gs hseg.symm
  · rintro ⟨htwo, hes, hfs, hgs⟩
    obtain ⟨rfl, hkeep⟩ := hback htwo
    obtain ⟨cpu, es, fs, gs, eip, cs, eflags⟩ := x
    obtain rfl : es = cpu.ds := hes
    obtain rfl : fs = cpu.ds := hfs
    obtain rfl : gs = cpu.ds := hgs
    exact ⟨rfl, hkeep⟩

end Interrupt

/-- A handler that changes its own copy of `ds`. -/
def sampleIsr : Isr := fun m regs => some (m.poke regs 5)

lemma sampleIsr_ownArea : OwnArea sampleIsr := by
  intro m regs m' h
  obtain rfl := Option.some.inj h
  refine ⟨rfl, fun a ha => Function.update_of_ne ?_ _ _⟩
  rw [Regs.size] at ha
  omega

/-- A program of the kernel. -/
def sampleContext : Context :=
  ⟨⟨0x10, 1, 2, 3, 4, 5, 6, 7⟩, 0x10, 0x10, 0x10, 0x100000, 8, 0x202⟩

/-- An empty stack and a blank screen. -/
def sampleMachine : Machine where
  stack := fun _ => 0
  sp := 0
  text := ⟨0, 0, 0, 7, 0, ⟨fun _ => 0, []⟩, 0, fun _ => 0, 0, []⟩
  kbd := ⟨fun _ => ⟨0, 0⟩, 511, 0, 0, 0⟩
  mem := fun _ => 0

/-- A program is interrupted by the keyboard, and goes on. -/
theorem interrupt_transparent_iff_keyboard : ∃ m' outs,
    interrupt (fun _ => some sampleIsr) 8 (.irq 1) none sampleContext sampleMachine =
      some ((sampleContext, m'), outs) ∧ KeepsFrom sampleMachine.sp sampleMachine m' := by
  have hown : ∀ handler, some sampleIsr = some handler → OwnArea handler := by
    intro handler hh
    obtain rfl := Option.some.inj hh
    exact sampleIsr_ownArea
  obtain ⟨hreturns, hback⟩ := @interrupt_transparent_iff (fun _ => some sampleIsr) 8 (.irq 1) none
    sampleContext sampleMachine (by decide) hown
  have hcall : HandlerReturns (fun _ => some sampleIsr) 8 (.irq 1) none sampleContext
      sampleMachine := by
    intro handler hh
    obtain rfl := Option.some.inj hh
    rfl
  obtain ⟨⟨⟨x', m'⟩, outs⟩, hrun⟩ := Option.isSome_iff_exists.mp (hreturns.mpr hcall)
  obtain ⟨rfl, hkeep⟩ := (hback x' m' outs hrun).mpr ⟨by decide, rfl, rfl, rfl⟩
  exact ⟨m', outs, hrun, hkeep⟩

end Korolev
