import Korolev.Dev.Kbd
import Korolev.Kernel.Text

set_option relaxedAutoImplicit false
set_option autoImplicit false

/-!
# Interrupt entry and dispatch

An exception or software interrupt enters through `isr_common_stub` (`kernel/inta.asm`), which
pushes the general registers and the data segment and calls `isr_handler`. What the stub pushed,
with the words pushed before it, *is* the parameter `regs_t regs` of `isr_handler`: the stub has
no separate argument. `isr_handler` (`kernel/int.c`) passes `regs` on to the registered handler,
again by value, so that the handler gets a copy of the sixteen words further down the stack.
Whether a change made by a handler reaches the interrupted program is therefore a matter of
addresses, and the kernel stack is modelled with them.

The stack is addressed in words. What a function keeps for itself (return address, saved
registers, locals) is not modelled; the number of words it takes is the parameter `gap`.

## Main definitions

* `Korolev.Machine` — the kernel stack, the devices and the memory of the kernel.
* `Korolev.Cpu` — the registers saved and restored by the stub.
* `Korolev.isrHandler`, `Korolev.isrCommonStub` — the way to a handler and back.

## Main results

* `Korolev.isrCommonStub_restores` — a handler that only changes its own parameter area and what
  is below has no effect on any register of the interrupted program.
-/

namespace Korolev

/-! ## The machine -/

/-- The state of the kernel as far as interrupt handlers use it. `mem` is the memory outside of
the frame buffer. -/
structure Machine where
  stack : ℤ → LONG
  sp : ℤ
  text : Text
  kbd : Kbd
  mem : LONG → BYTE

/-- The general registers other than `esp`, and the data segment. -/
structure Cpu where
  ds : WORD
  edi : LONG
  esi : LONG
  ebp : LONG
  ebx : LONG
  edx : LONG
  ecx : LONG
  eax : LONG
  deriving DecidableEq, Repr

namespace Machine

/-- A store to the stack. -/
def poke (m : Machine) (a : ℤ) (v : LONG) : Machine :=
  { m with stack := Function.update m.stack a v }

/-- `push v` -/
def push (m : Machine) (v : LONG) : Machine :=
  { m with sp := m.sp - 1, stack := Function.update m.stack (m.sp - 1) v }

/-- The byte at an address, which may be one of the frame buffer. -/
def load (m : Machine) (t : Text) (a : LONG) : BYTE :=
  if 0xB8000 ≤ a ∧ a < 0xC0000 then
    let off := (a - 0xB8000).toNat
    let w := t.vram.cell (off / 2)
    if off % 2 = 0 then w.toUInt8 else (w >>> 8).toUInt8
  else m.mem a

end Machine

/-! ## `regs_t` -/

namespace Regs

/-- `regs.ds`, the last word pushed. -/
def ds : ℤ := 0

/-- `regs.edi`; from here to `regs.eax` the words are those of `pusha`. -/
def edi : ℤ := 1

/-- `regs.esi` -/
def esi : ℤ := 2

/-- `regs.ebp` -/
def ebp : ℤ := 3

/-- `regs.ebx`, behind the word of `esp` -/
def ebx : ℤ := 5

/-- `regs.edx` -/
def edx : ℤ := 6

/-- `regs.ecx` -/
def ecx : ℤ := 7

/-- `regs.eax` -/
def eax : ℤ := 8

/-- `regs.int_no`; the words behind it are `err_code` and those pushed by the processor. -/
def intNo : ℤ := 9

/-- `sizeof(regs_t)` in words. -/
def size : ℤ := 16

end Regs

/-- Passing `regs` by value: its words are copied from `src` to `dst`. -/
def Machine.copyRegs (m : Machine) (src dst : ℤ) : Machine :=
  { m with
    stack := fun a => if dst ≤ a ∧ a < dst + Regs.size then m.stack (src + (a - dst))
      else m.stack a }

/-- The copy has the words of the original. -/
lemma Machine.copyRegs_stack (m : Machine) (src dst : ℤ) {o : ℤ} (h0 : 0 ≤ o)
    (ho : o < Regs.size) : (m.copyRegs src dst).stack (dst + o) = m.stack (src + o) := by
  simp only [Machine.copyRegs]
  rw [if_pos (by omega)]
  congr 1
  omega

/-! ## Dispatch -/

/-- `isr_t`: a handler gets the address of its parameter. It need not return. -/
def Isr := Machine → ℤ → Option Machine

/-- `int_regh(id, handler)` -/
def intRegh (handlers : LONG → Option Isr) (id : BYTE) (handler : Isr) : LONG → Option Isr :=
  Function.update handlers id.toUInt32 (some handler)

/-- `isr_handler(regs)`, with `regs` at the given address. The copy for the handler is below the
return address, the saved registers and the locals of `isr_handler`. -/
def isrHandler (handlers : LONG → Option Isr) (gap : ℕ) (m : Machine) (regs : ℤ) :
    Option Machine :=
  let intNo := m.stack (regs + Regs.intNo)
  match handlers intNo with
  | none => some m
  | some handler =>
    if intNo < 256 then
      let arg := regs - gap - Regs.size
      handler (m.copyRegs regs arg) arg
    else some m

/-- `pusha`, where the value pushed for `esp` is the one before. -/
def pusha (m : Machine) (c : Cpu) : Machine :=
  let esp : LONG := UInt32.ofNat (4 * m.sp % 2 ^ 32).toNat
  [c.eax, c.ecx, c.edx, c.ebx, esp, c.ebp, c.esi, c.edi].foldl Machine.push m

/-- `popa`, which skips the word of `esp`. -/
def popa (m : Machine) (c : Cpu) : Cpu × Machine :=
  ({ c with
      edi := m.stack m.sp
      esi := m.stack (m.sp + 1)
      ebp := m.stack (m.sp + 2)
      ebx := m.stack (m.sp + 4)
      edx := m.stack (m.sp + 5)
      ecx := m.stack (m.sp + 6)
      eax := m.stack (m.sp + 7) },
    { m with sp := m.sp + 8 })

/-- The first part of `isr_common_stub`: `pusha` and the push of the data segment, for which
`mov ax, ds` replaces the lower half of `eax`. -/
def saveRegs (m : Machine) (c : Cpu) : Machine :=
  (pusha m c).push ((c.eax &&& 0xffff0000) ||| c.ds.toUInt32)

/-- The last part of `isr_common_stub`: the data segment is popped through `eax`, then `popa`. -/
def restoreRegs (m : Machine) (c : Cpu) : Cpu × Machine :=
  let eax := m.stack m.sp
  popa { m with sp := m.sp + 1 } { c with ds := eax.toUInt16, eax := eax }

/-- `isr_common_stub`, up to and including `popa`. The handler runs in the kernel's data
segment. -/
def isrCommonStub (handlers : LONG → Option Isr) (gap : ℕ) (c : Cpu) (m : Machine) :
    Option (Cpu × Machine) :=
  let m := saveRegs m c
  let c := { c with ds := 0x10 }
  (isrHandler handlers gap m m.sp).map fun m => restoreRegs m c

/-! ## What a handler can change -/

/-- Nothing changed from address `top` on, and the stack pointer is back. -/
structure KeepsFrom (top : ℤ) (m m' : Machine) : Prop where
  sp_eq : m'.sp = m.sp
  stack_eq : ∀ a, top ≤ a → m'.stack a = m.stack a

/-- A handler that writes to its parameter area and below only. -/
def OwnArea (handler : Isr) : Prop :=
  ∀ m regs m', handler m regs = some m' → KeepsFrom (regs + Regs.size) m m'

/-- Through `isr_handler` such a handler leaves the saved frame alone: its parameter area is the
copy. -/
lemma isrHandler_keepsFrom {handlers : LONG → Option Isr} {gap : ℕ} {m m' : Machine} {regs : ℤ}
    (hown : ∀ handler, handlers (m.stack (regs + Regs.intNo)) = some handler → OwnArea handler)
    (h : isrHandler handlers gap m regs = some m') : KeepsFrom regs m m' := by
  have hrefl : KeepsFrom regs m m := ⟨rfl, fun _ _ => rfl⟩
  unfold isrHandler at h
  dsimp only at h
  cases hh : handlers (m.stack (regs + Regs.intNo)) with
  | none =>
    rw [hh] at h
    cases h
    exact hrefl
  | some handler =>
    rw [hh] at h
    dsimp only at h
    split_ifs at h with hlt
    · have hkeep := hown handler hh _ _ _ h
      refine ⟨hkeep.sp_eq, fun a ha => ?_⟩
      have hbelow : ¬(regs - gap - Regs.size ≤ a ∧ a < regs - gap - Regs.size + Regs.size) := by
        omega
      rw [hkeep.stack_eq a (by omega)]
      simp only [Machine.copyRegs]
      exact if_neg hbelow
    · cases h
      exact hrefl

/-! ## The saved frame -/

/-- A word pushed first is the furthest up. -/
lemma foldl_push (vs : List LONG) : ∀ m : Machine,
    (vs.foldl Machine.push m).sp = m.sp - vs.length ∧
    (∀ a, m.sp ≤ a → (vs.foldl Machine.push m).stack a = m.stack a) ∧
    ∀ (i : ℕ) (w : LONG), vs[i]? = some w →
      (vs.foldl Machine.push m).stack (m.sp - 1 - i) = w := by
  induction vs with
  | nil => exact fun m => ⟨by simp, fun _ _ => rfl, fun i w hw => nomatch hw⟩
  | cons v vs ih =>
    intro m
    obtain ⟨hsp, habove, hword⟩ := ih (m.push v)
    have hpush : (m.push v).sp = m.sp - 1 := rfl
    rw [List.foldl_cons]
    refine ⟨?_, fun a ha => ?_, fun i w hw => ?_⟩
    · rw [hsp, hpush, List.length_cons]
      omega
    · rw [habove a (by omega)]
      exact Function.update_of_ne (by omega) _ _
    · cases i with
      | zero =>
        obtain rfl : v = w := by simpa using hw
        have htop : m.sp - 1 - ((0 : ℕ) : ℤ) = m.sp - 1 := by omega
        rw [htop, habove _ (by omega)]
        exact Function.update_self (m.sp - 1) v m.stack
      | succ i =>
        have hnext : m.sp - 1 - ((i + 1 : ℕ) : ℤ) = (m.push v).sp - 1 - i := by
          rw [hpush]
          omega
        rw [hnext]
        exact hword i w (by simpa using hw)

/-- The registers in the frame at `regs`. -/
structure Frame (c : Cpu) (stack : ℤ → LONG) (regs : ℤ) : Prop where
  ds_eq : (stack (regs + Regs.ds)).toUInt16 = c.ds
  edi_eq : stack (regs + Regs.edi) = c.edi
  esi_eq : stack (regs + Regs.esi) = c.esi
  ebp_eq : stack (regs + Regs.ebp) = c.ebp
  ebx_eq : stack (regs + Regs.ebx) = c.ebx
  edx_eq : stack (regs + Regs.edx) = c.edx
  ecx_eq : stack (regs + Regs.ecx) = c.ecx
  eax_eq : stack (regs + Regs.eax) = c.eax

/-- The frame depends on the words from `regs` on only. -/
lemma Frame.of_keepsFrom {c : Cpu} {stack stack' : ℤ → LONG} {regs : ℤ} (h : Frame c stack regs)
    (hkeep : ∀ a, regs ≤ a → stack' a = stack a) : Frame c stack' regs := by
  have hat : ∀ {o : ℤ}, 0 ≤ o → stack' (regs + o) = stack (regs + o) :=
    fun ho => hkeep _ (by omega)
  constructor
  case ds_eq => exact (congrArg _ (hat (by decide))).trans h.ds_eq
  case edi_eq => exact (hat (by decide)).trans h.edi_eq
  case esi_eq => exact (hat (by decide)).trans h.esi_eq
  case ebp_eq => exact (hat (by decide)).trans h.ebp_eq
  case ebx_eq => exact (hat (by decide)).trans h.ebx_eq
  case edx_eq => exact (hat (by decide)).trans h.edx_eq
  case ecx_eq => exact (hat (by decide)).trans h.ecx_eq
  case eax_eq => exact (hat (by decide)).trans h.eax_eq

/-- The lower half of the word pushed for the data segment. -/
lemma toUInt16_dsWord (x : LONG) (ds : WORD) :
    ((x &&& 0xffff0000) ||| ds.toUInt32).toUInt16 = ds := by
  have hmask : (x &&& 0xffff0000).toUInt16 = 0 := by
    rw [UInt32.toUInt16_and]
    exact UInt16.and_zero
  rw [UInt32.toUInt16_or, hmask, UInt16.zero_or]
  exact UInt16.toUInt16_toUInt32 ds

/-- The stub saves every register. -/
lemma saveRegs_frame (m : Machine) (c : Cpu) :
    (saveRegs m c).sp = m.sp - 9 ∧ Frame c (saveRegs m c).stack (m.sp - 9) ∧
    ∀ a, m.sp ≤ a → (saveRegs m c).stack a = m.stack a := by
  obtain ⟨hsp, habove, hword⟩ := foldl_push
    [c.eax, c.ecx, c.edx, c.ebx, UInt32.ofNat (4 * m.sp % 2 ^ 32).toNat, c.ebp, c.esi, c.edi,
      (c.eax &&& 0xffff0000) ||| c.ds.toUInt32] m
  -- the word at offset `o` of the frame was pushed at position `8 - o`
  have hreg : ∀ {o : ℤ} (i : ℕ) {w : LONG}, o + i = 8 → _ →
      (saveRegs m c).stack (m.sp - 9 + o) = w :=
    fun {o} i {w} ho hw =>
      (congrArg _ (show m.sp - 9 + o = m.sp - 1 - i by omega)).trans (hword i w hw)
  refine ⟨hsp, ?_, habove⟩
  constructor
  case ds_eq =>
    rw [hreg 8 (by decide) rfl]
    exact toUInt16_dsWord _ _
  case edi_eq => exact hreg 7 (by decide) rfl
  case esi_eq => exact hreg 6 (by decide) rfl
  case ebp_eq => exact hreg 5 (by decide) rfl
  case ebx_eq => exact hreg 3 (by decide) rfl
  case edx_eq => exact hreg 2 (by decide) rfl
  case ecx_eq => exact hreg 1 (by decide) rfl
  case eax_eq => exact hreg 0 (by decide) rfl

/-- Restoring gives back the registers of the frame. -/
lemma restoreRegs_eq {c c' : Cpu} {m : Machine} (h : Frame c m.stack m.sp) :
    restoreRegs m c' = (c, { m with sp := m.sp + 9 }) := by
  have hat : ∀ {o : ℤ} {k : ℤ}, 1 + k = o → m.sp + 1 + k = m.sp + o := by omega
  obtain ⟨hds, hedi, hesi, hebp, hebx, hedx, hecx, heax⟩ := h
  unfold restoreRegs popa
  dsimp only
  rw [Regs.ds, add_zero] at hds
  rw [hds, hat (o := Regs.esi) (by decide), hat (o := Regs.ebp) (by decide),
    hat (o := Regs.ebx) (by decide), hat (o := Regs.edx) (by decide),
    hat (o := Regs.ecx) (by decide), hat (o := Regs.eax) (by decide), hesi, hebp, hebx, hedx,
    hecx, heax]
  rw [Regs.edi] at hedi
  rw [hedi]
  congr 2
  omega

/-- The frame's interrupt number is the word on the stack when the stub is entered. -/
lemma saveRegs_intNo (m : Machine) (c : Cpu) :
    (saveRegs m c).stack ((saveRegs m c).sp + Regs.intNo) = m.stack m.sp := by
  obtain ⟨hsp, -, habove⟩ := saveRegs_frame m c
  rw [hsp, show m.sp - 9 + Regs.intNo = m.sp by simp [Regs.intNo], habove _ le_rfl]

/-- **The stub restores every register.** If the registered handler only changes its own
parameter area and what is below, the interrupted program finds its registers, and the words on
its stack, as they were.

**Proof sketch.** The registers are in the frame after `saveRegs`; `isr_handler` gives its
handler a copy of the frame below, so the frame is as before when it is popped. -/
theorem isrCommonStub_restores {handlers : LONG → Option Isr} {gap : ℕ} {c c' : Cpu}
    {m m' : Machine}
    (hown : ∀ handler, handlers (m.stack m.sp) = some handler → OwnArea handler)
    (h : isrCommonStub handlers gap c m = some (c', m')) :
    c' = c ∧ KeepsFrom m.sp m m' := by
  obtain ⟨hsp, hframe, habove⟩ := saveRegs_frame m c
  obtain ⟨m₁, hrun, heq⟩ := Option.map_eq_some_iff.mp h
  have hkeep := isrHandler_keepsFrom (by rw [saveRegs_intNo]; exact hown) hrun
  rw [hsp] at hkeep
  have hsp₁ : m₁.sp = m.sp - 9 := hkeep.sp_eq.trans hsp
  have hframe₁ : Frame c m₁.stack m₁.sp := by
    rw [hsp₁]
    exact hframe.of_keepsFrom hkeep.stack_eq
  rw [restoreRegs_eq hframe₁] at heq
  obtain ⟨rfl, rfl⟩ := Prod.mk.inj heq
  refine ⟨rfl, ?_, fun a ha => ?_⟩
  · show m₁.sp + 9 = m.sp
    omega
  · exact (hkeep.stack_eq a (by omega)).trans (habove a ha)

end Korolev
