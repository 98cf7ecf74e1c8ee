import Korolev.Base
import Korolev.Library.X86

set_option relaxedAutoImplicit false
set_option autoImplicit false

/-!
# `strlen`

`strlen` is written in assembly, in `kernel/fastop.asm`. It saves two registers and then takes its
argument from `[esp + 8]`, where after two pushes the return address is; the argument is behind it.
It clears `ecx`, moves `esi` to the next `0`, and then moves `eax` to `ecx`, without having counted
in `ecx` or assigned `eax`. Both registers are restored.

So it looks for a `0` in the code of its caller, which it finds, or reaches the end of the address
space, and then returns; all registers have their values from before the call, and `eax`, in which
the result is expected, is one of them.

## Main definitions

* `Korolev.strlenCode` — the routine.
* `Korolev.Scanning` — the machine in the middle of the routine.

## Main results

* `Korolev.strlen_scan` — the loop ends.
* `Korolev.strlen_returns` — the routine returns, and leaves all registers as they were.
-/

namespace Korolev

open X86

/-- `strlen` of `kernel/fastop.asm`; `.aloop` is position 4 and `.end` position 8. -/
def strlenCode : List Instr :=
  [.push .esi,
   .push .ecx,
   .xor .ecx .ecx,
   .load .esi .esp 8,
   .cmpByte .esi 0,
   .jz 8,
   .inc .esi,
   .jnz 4,
   .mov .ecx .eax,
   .pop .ecx,
   .pop .esi,
   .ret]

/-- Memory with the two registers saved. -/
def savedMem (m : State) : UInt32 → UInt8 :=
  store32 (store32 m.mem (m.reg .esp - 4) (m.reg .esi)) (m.reg .esp - 4 - 4) (m.reg .ecx)

/-- The machine between the prologue and the epilogue, for `m₀` the machine at the call. -/
structure Scanning (m₀ m : State) : Prop where
  esp : m.reg .esp = m₀.reg .esp - 4 - 4
  mem : m.mem = savedMem m₀
  kept : ∀ r, r ≠ .esp → r ≠ .esi → r ≠ .ecx → m.reg r = m₀.reg r

/-- The routine has returned: to the address on the stack, with all registers restored. -/
def Returned (m₀ : State) (e : Exit) : Prop :=
  ∃ m, e = .ret m (load32 m₀.mem (m₀.reg .esp)) ∧ m.reg .esp = m₀.reg .esp + 4 ∧
    m.mem = savedMem m₀ ∧ ∀ r, r ≠ .esp → m.reg r = m₀.reg r

/-! ## The stack -/

/-- The distance to the next word of the stack. -/
lemma toNat_sub_sub_four (a b : UInt32) (h : 4 ≤ (a - (b - 4)).toNat) :
    (a - b).toNat = (a - (b - 4)).toNat - 4 := by
  have h4 : (4 : UInt32).toNat = 4 := rfl
  have ha := a.toNat_lt
  have hb := b.toNat_lt
  simp only [UInt32.toNat_sub, h4] at h ⊢
  omega

/-- A word and the ones below it. -/
lemma word_below (a : UInt32) :
    (a - (a - 4)).toNat = 4 ∧ (a - 4 - a).toNat = 2 ^ 32 - 4 ∧ (a - (a - 4 - 4)).toNat = 8 ∧
      (a - 4 - 4 - a).toNat = 2 ^ 32 - 8 := by
  have h4 : (4 : UInt32).toNat = 4 := rfl
  have ha := a.toNat_lt
  simp only [UInt32.toNat_sub, h4]
  omega

/-- Eight bytes hold the two registers. -/
lemma savedMem_of_le {m : State} {a : UInt32} (h : 8 ≤ (a - (m.reg .esp - 8)).toNat) :
    savedMem m a = m.mem a := by
  have htwo : m.reg .esp - 8 = m.reg .esp - 4 - 4 := by
    have h4 : (4 : UInt32).toNat = 4 := rfl
    have h8 : (8 : UInt32).toNat = 8 := rfl
    rw [← UInt32.toNat_inj, UInt32.toNat_sub, UInt32.toNat_sub, UInt32.toNat_sub, h4, h8]
    omega
  rw [htwo] at h
  have hnext := toNat_sub_sub_four a (m.reg .esp - 4) (by omega)
  rw [savedMem, store32_of_le (by omega), store32_of_le (by omega)]

lemma load32_savedMem_ecx (m : State) : load32 (savedMem m) (m.reg .esp - 4 - 4) = m.reg .ecx :=
  load32_store32 _ _ _

lemma load32_savedMem_esi (m : State) : load32 (savedMem m) (m.reg .esp - 4) = m.reg .esi := by
  obtain ⟨hup, hdown, -, -⟩ := word_below (m.reg .esp - 4)
  rw [savedMem, load32_store32_of_disjoint (by omega) (by omega), load32_store32]

lemma load32_savedMem_ret (m : State) :
    load32 (savedMem m) (m.reg .esp) = load32 m.mem (m.reg .esp) := by
  obtain ⟨hup, hdown, hup', hdown'⟩ := word_below (m.reg .esp)
  rw [savedMem, load32_store32_of_disjoint (by omega) (by omega),
    load32_store32_of_disjoint (by omega) (by omega)]

/-! ## The routine -/

/-- The prologue. -/
lemma strlen_prologue {m₀ : State} (hpc : m₀.pc = 0) :
    ∃ m, Scanning m₀ m ∧ m.pc = 4 ∧
      ∀ e, Loop.Returns (step strlenCode) m e → Loop.Returns (step strlenCode) m₀ e := by
  refine ⟨((((m₀.push .esi).next.push .ecx).next.xor .ecx .ecx).next.load .esi .esp 8).next,
    ⟨rfl, ?_, fun r hsp hsi hcx => ?_⟩, congrArg (· + 4) hpc, fun e he => ?_⟩
  · simp [State.load, State.xor, State.push, savedMem, State.set]
  · simp [State.load, State.xor, State.push, State.set, hsp, hsi, hcx]
  · apply returns_of_exec 0 hpc rfl rfl
    apply returns_of_exec 1 (congrArg (· + 1) hpc) rfl rfl
    apply returns_of_exec 2 (congrArg (· + 2) hpc) rfl rfl
    apply returns_of_exec 3 (congrArg (· + 3) hpc) rfl rfl
    exact he

/-- The epilogue. -/
lemma strlen_epilogue {m₀ m : State} (hm : Scanning m₀ m) (hpc : m.pc = 8) :
    ∃ e, Loop.Returns (step strlenCode) m e ∧ Returned m₀ e := by
  -- behind `mov ecx, eax`, behind `pop ecx`, and behind `pop esi`
  obtain ⟨m₁, hm₁⟩ : ∃ m₁, m₁ = (m.set .ecx (m.reg .eax)).next := ⟨_, rfl⟩
  obtain ⟨m₂, hm₂⟩ : ∃ m₂, m₂ = (m₁.pop .ecx).next := ⟨_, rfl⟩
  obtain ⟨m₃, hm₃⟩ : ∃ m₃, m₃ = (m₂.pop .esi).next := ⟨_, rfl⟩
  have hmem₁ : m₁.mem = savedMem m₀ := by
    rw [hm₁, State.next_mem, State.set_mem, hm.mem]
  have hmem₂ : m₂.mem = savedMem m₀ := by rw [hm₂, State.next_mem, State.pop_mem, hmem₁]
  have hmem₃ : m₃.mem = savedMem m₀ := by rw [hm₃, State.next_mem, State.pop_mem, hmem₂]
  have hesp₁ : m₁.reg .esp = m₀.reg .esp - 4 - 4 := by
    rw [hm₁, State.next_reg, State.set_of_ne _ _ (by decide), hm.esp]
  have hesp₂ : m₂.reg .esp = m₀.reg .esp - 4 := by
    rw [hm₂, State.next_reg, State.pop_esp _ (by decide), hesp₁, UInt32.sub_add_cancel]
  have hesp₃ : m₃.reg .esp = m₀.reg .esp := by
    rw [hm₃, State.next_reg, State.pop_esp _ (by decide), hesp₂, UInt32.sub_add_cancel]
  have hpc₃ : m₃.pc = 11 := by
    rw [hm₃, hm₂, hm₁]
    simp [hpc]
  refine ⟨.ret (m₃.set .esp (m₀.reg .esp + 4)) (load32 m₀.mem (m₀.reg .esp)), ?_, _, rfl,
    State.set_self _ _ _, hmem₃, fun r hsp => ?_⟩
  · have hret : exec m₃ .ret = .inr (.ret (m₃.set .esp (m₀.reg .esp + 4))
        (load32 m₀.mem (m₀.reg .esp))) := by
      rw [← load32_savedMem_ret, ← hmem₃, ← hesp₃]
      rfl
    apply returns_of_exec 8 hpc rfl rfl
    apply returns_of_exec 9 (congrArg (· + 1) hpc) rfl rfl
    apply returns_of_exec 10 (congrArg (· + 2) hpc) rfl rfl
    rw [← hm₁, ← hm₂, ← hm₃]
    apply Loop.Returns.exit
    rw [← hret]
    apply step_eq
    rw [hpc₃]
    rfl
  · rw [State.set_of_ne _ _ hsp, hm₃, State.next_reg]
    by_cases hsi : r = .esi
    · rw [hsi, State.pop_self, hmem₂, hesp₂, load32_savedMem_esi]
    rw [State.pop_of_ne _ hsi hsp, hm₂, State.next_reg]
    by_cases hcx : r = .ecx
    · rw [hcx, State.pop_self, hmem₁, hesp₁, load32_savedMem_ecx]
    rw [State.pop_of_ne _ hcx hsp, hm₁, State.next_reg, State.set_of_ne _ _ hcx]
    exact hm.kept r hsp hsi hcx

/-- The machine is still scanning behind an instruction that moves `esi`. -/
lemma Scanning.inc_esi {m₀ m : State} (hm : Scanning m₀ m) : Scanning m₀ (m.inc .esi).next := by
  refine ⟨?_, hm.mem, fun r hsp hsi hcx => ?_⟩
  · rw [State.next_reg, State.inc_of_ne _ (by decide)]
    exact hm.esp
  · rw [State.next_reg, State.inc_of_ne _ hsi]
    exact hm.kept r hsp hsi hcx

/-- `inc esi` and the jump behind it: back to the next byte, or out of the loop if `esi` wraps. -/
lemma strlen_scan_next {m₀ m : State} (hm : Scanning m₀ m) (hpc : m.pc = 6) :
    ∃ m', Scanning m₀ m' ∧
      (m'.pc = 8 ∨ m'.pc = 4 ∧ (m'.reg .esi).toNat = (m.reg .esi).toNat + 1) ∧
      ∀ e, Loop.Returns (step strlenCode) m' e → Loop.Returns (step strlenCode) m e := by
  obtain ⟨m₁, hm₁⟩ : ∃ m₁, m₁ = (m.inc .esi).next := ⟨_, rfl⟩
  have hpc₁ : m₁.pc = 7 := by
    rw [hm₁]
    exact congrArg (· + 1) hpc
  have hesi₁ : m₁.reg .esi = m.reg .esi + 1 := by rw [hm₁, State.next_reg, State.inc_self]
  have hzf₁ : m₁.zf = true ↔ m₁.reg .esi = 0 := by
    rw [hesi₁, hm₁, State.next_zf, State.inc_zf]
    exact decide_eq_true_iff
  have hscan₁ : Scanning m₀ m₁ := by
    rw [hm₁]
    exact hm.inc_esi
  have hrun : ∀ e, Loop.Returns (step strlenCode) m₁ e → Loop.Returns (step strlenCode) m e := by
    intro e he
    apply returns_of_exec 6 hpc rfl rfl
    rw [← hm₁]
    exact he
  by_cases hwrap : m₁.reg .esi = 0
  · refine ⟨m₁.next, ⟨hscan₁.esp, hscan₁.mem, hscan₁.kept⟩, .inl (congrArg (· + 1) hpc₁),
      fun e he => hrun e ?_⟩
    exact returns_of_exec 7 hpc₁ rfl (exec_jnz_next 4 (hzf₁.mpr hwrap)) he
  · refine ⟨{ m₁ with pc := 4 }, ⟨hscan₁.esp, hscan₁.mem, hscan₁.kept⟩, .inr ⟨rfl, ?_⟩,
      fun e he => hrun e ?_⟩
    · show (m₁.reg .esi).toNat = _
      have hone : (1 : LONG).toNat = 1 := rfl
      rw [← Ne, ← toNat_ne_zero, hesi₁, UInt32.toNat_add, hone] at hwrap
      rw [hesi₁, UInt32.toNat_add, hone]
      have hlt := (m.reg .esi).toNat_lt
      omega
    · have hnz : m₁.zf = false := Bool.eq_false_iff.mpr (mt hzf₁.mp hwrap)
      exact returns_of_exec 7 hpc₁ rfl (exec_jnz_taken 4 hnz) he

/-- One byte of the scan: the loop is left, or goes on with the next byte. -/
lemma strlen_scan_step {m₀ m : State} (hm : Scanning m₀ m) (hpc : m.pc = 4) :
    ∃ m', Scanning m₀ m' ∧
      (m'.pc = 8 ∨ m'.pc = 4 ∧ (m'.reg .esi).toNat = (m.reg .esi).toNat + 1) ∧
      ∀ e, Loop.Returns (step strlenCode) m' e → Loop.Returns (step strlenCode) m e := by
  obtain ⟨m₁, hm₁⟩ : ∃ m₁, m₁ = (m.cmpByte .esi 0).next := ⟨_, rfl⟩
  have hpc₁ : m₁.pc = 5 := by
    rw [hm₁]
    exact congrArg (· + 1) hpc
  have hscan₁ : Scanning m₀ m₁ := by
    rw [hm₁]
    exact ⟨hm.esp, hm.mem, hm.kept⟩
  have hrun : ∀ e, Loop.Returns (step strlenCode) m₁ e → Loop.Returns (step strlenCode) m e := by
    intro e he
    apply returns_of_exec 4 hpc rfl rfl
    rw [← hm₁]
    exact he
  cases hzero : m₁.zf with
  | true =>
    refine ⟨{ m₁ with pc := 8 }, ⟨hscan₁.esp, hscan₁.mem, hscan₁.kept⟩, .inl rfl,
      fun e he => hrun e ?_⟩
    exact returns_of_exec 5 hpc₁ rfl (exec_jz_taken 8 hzero) he
  | false =>
    -- the byte is not `0`: on to the next address
    have hscan₂ : Scanning m₀ m₁.next := ⟨hscan₁.esp, hscan₁.mem, hscan₁.kept⟩
    obtain ⟨m', hm', hpc', hnext⟩ := strlen_scan_next hscan₂ (congrArg (· + 1) hpc₁)
    have hesi : m₁.next.reg .esi = m.reg .esi := by
      rw [hm₁]
      rfl
    rw [hesi] at hpc'
    refine ⟨m', hm', hpc', fun e he => hrun e ?_⟩
    exact returns_of_exec 5 hpc₁ rfl (exec_jz_next 8 hzero) (hnext e he)

/-- **The loop ends**, at the latest when `esi` wraps to `0`. -/
lemma strlen_scan {m₀ m : State} (hm : Scanning m₀ m) (hpc : m.pc = 4) :
    ∃ e, Loop.Returns (step strlenCode) m e ∧ Returned m₀ e := by
  induction hleft : 2 ^ 32 - (m.reg .esi).toNat using Nat.strongRecOn generalizing m with
  | ind left ih =>
    obtain ⟨m', hm', hdone | ⟨hagain, hesi⟩, hrun⟩ := strlen_scan_step hm hpc
    · obtain ⟨e, he, hret⟩ := strlen_epilogue hm' hdone
      exact ⟨e, hrun e he, hret⟩
    · have hlt := (m'.reg .esi).toNat_lt
      obtain ⟨e, he, hret⟩ := ih _ (by omega) hm' hagain rfl
      exact ⟨e, hrun e he, hret⟩

/-- **`strlen` returns**, and all registers are as they were. -/
lemma strlen_returns {m₀ : State} (hpc : m₀.pc = 0) :
    ∃ e, Loop.Returns (step strlenCode) m₀ e ∧ Returned m₀ e := by
  obtain ⟨m, hm, hloop, hrun⟩ := strlen_prologue hpc
  obtain ⟨e, he, hret⟩ := strlen_scan hm hloop
  exact ⟨e, hrun e he, hret⟩

end Korolev
