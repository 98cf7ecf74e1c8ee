import Korolev.Library.Bytes
import Korolev.Library.Loop

set_option relaxedAutoImplicit false
set_option autoImplicit false

/-!
# A fragment of the 32-bit x86

The instructions with which small routines are written by hand: the stack, moves, counting, a test
of a byte, conditional jumps. A routine is a list of instructions; jumps go to positions in it, and
`ret` leaves it for the address on the stack. Memory is all addresses, and wraps around. Of the
flags there is the zero flag, the only one these instructions test.

An instruction is a function of the machine, and a routine the loop that executes one instruction
after the other.

## Main definitions

* `X86.Instr`, `X86.State` — instructions and the state of the machine.
* `X86.exec`, `X86.step` — an instruction, and the one at the program counter; `X86.Exit` is how a
  routine is left.
* `X86.load32`, `X86.store32` — words in memory.

## Main results

* `X86.load32_store32`, `X86.load32_store32_of_disjoint` — a load after a store.
* `X86.step_eq`, `X86.returns_of_exec` — the instruction that is executed.
-/

namespace X86

open Bytes

/-! ## Memory -/

/-- The word at address `a`. -/
def load32 (mem : UInt32 → UInt8) (a : UInt32) : UInt32 :=
  le32 (fun k => mem (a + UInt32.ofNat k)) 0

/-- The memory with the word `v` at address `a`. -/
def store32 (mem : UInt32 → UInt8) (a v : UInt32) : UInt32 → UInt8 := fun x =>
  if (x - a).toNat < 4 then bytes32 v (x - a).toNat else mem x

/-- A load depends on the four bytes it reads. -/
lemma load32_congr {mem mem' : UInt32 → UInt8} {a : UInt32}
    (h : ∀ k < 4, mem (a + UInt32.ofNat k) = mem' (a + UInt32.ofNat k)) :
    load32 mem a = load32 mem' a := by
  apply le32_congr
  intro k hk
  rw [Nat.zero_add]
  exact h k hk

/-- The distance to a byte of a word. -/
lemma toNat_add_sub {a : UInt32} {k : ℕ} (hk : k < 2 ^ 32) :
    (a + UInt32.ofNat k - a).toNat = k := by
  rw [UInt32.add_comm, UInt32.add_sub_cancel, UInt32.toNat_ofNat', Nat.mod_eq_of_lt hk]

/-- A load at the same address. -/
lemma load32_store32 (mem : UInt32 → UInt8) (a v : UInt32) : load32 (store32 mem a v) a = v := by
  have hbytes : load32 (store32 mem a v) a = le32 (bytes32 v) 0 := by
    apply le32_congr
    intro k hk
    rw [Nat.zero_add, store32, toNat_add_sub (by omega), if_pos hk]
  rw [hbytes, le32_bytes32]

/-- A store changes no other byte. -/
lemma store32_of_le {mem : UInt32 → UInt8} {a v x : UInt32} (h : 4 ≤ (x - a).toNat) :
    store32 mem a v x = mem x := if_neg (by omega)

/-- A load away from the store. -/
lemma load32_store32_of_disjoint {mem : UInt32 → UInt8} {a v b : UInt32}
    (h : 4 ≤ (b - a).toNat) (h' : 4 ≤ (a - b).toNat) :
    load32 (store32 mem a v) b = load32 mem b := by
  apply load32_congr
  intro k hk
  apply store32_of_le
  have hne : (a - b).toNat = 2 ^ 32 - (b - a).toNat := by
    rw [UInt32.toNat_sub, UInt32.toNat_sub] at *
    have ha := a.toNat_lt
    have hb := b.toNat_lt
    omega
  have hshift : b + UInt32.ofNat k - a = b - a + UInt32.ofNat k := by
    rw [UInt32.sub_eq_add_neg, UInt32.sub_eq_add_neg, UInt32.add_assoc, UInt32.add_assoc,
      UInt32.add_comm (-a)]
  have hlt := (b - a).toNat_lt
  rw [hshift, UInt32.toNat_add, UInt32.toNat_ofNat']
  omega

/-! ## Instructions -/

/-- The general registers. -/
inductive Reg where
  | eax
  | ecx
  | edx
  | ebx
  | esp
  | ebp
  | esi
  | edi
  deriving DecidableEq

/-- The instructions, with the destination first. -/
inductive Instr where
  | push (r : Reg)
  | pop (r : Reg)
  | mov (dst src : Reg)
  | load (dst base : Reg) (disp : UInt32)
  | xor (dst src : Reg)
  | inc (r : Reg)
  | cmpByte (base : Reg) (v : UInt8)
  | jz (target : ℕ)
  | jnz (target : ℕ)
  | ret

/-- The registers, the zero flag, memory, and the position of the next instruction. -/
structure State where
  reg : Reg → UInt32
  zf : Bool
  mem : UInt32 → UInt8
  pc : ℕ

/-- How a routine is left: by `ret` to an address, or by running out of it. -/
inductive Exit where
  | ret (m : State) (addr : UInt32)
  | stray (m : State)

namespace State

variable (m : State)

/-- `r := v` -/
def set (r : Reg) (v : UInt32) : State := { m with reg := Function.update m.reg r v }

/-- On to the next instruction. -/
def next : State := { m with pc := m.pc + 1 }

def push (r : Reg) : State :=
  { m with mem := store32 m.mem (m.reg .esp - 4) (m.reg r) }.set .esp (m.reg .esp - 4)

/-- The stack pointer is moved first, so that `pop esp` loads it. -/
def pop (r : Reg) : State := (m.set .esp (m.reg .esp + 4)).set r (load32 m.mem (m.reg .esp))

def load (dst base : Reg) (disp : UInt32) : State := m.set dst (load32 m.mem (m.reg base + disp))

def xor (dst src : Reg) : State :=
  { m with zf := m.reg dst ^^^ m.reg src = 0 }.set dst (m.reg dst ^^^ m.reg src)

def inc (r : Reg) : State := { m with zf := m.reg r + 1 = 0 }.set r (m.reg r + 1)

def cmpByte (base : Reg) (v : UInt8) : State := { m with zf := m.mem (m.reg base) = v }

end State

/-- One instruction. -/
def exec (m : State) : Instr → State ⊕ Exit
  | .push r => .inl (m.push r).next
  | .pop r => .inl (m.pop r).next
  | .mov dst src => .inl (m.set dst (m.reg src)).next
  | .load dst base disp => .inl (m.load dst base disp).next
  | .xor dst src => .inl (m.xor dst src).next
  | .inc r => .inl (m.inc r).next
  | .cmpByte base v => .inl (m.cmpByte base v).next
  | .jz target => .inl (if m.zf then { m with pc := target } else m.next)
  | .jnz target => .inl (if m.zf then m.next else { m with pc := target })
  | .ret => .inr (.ret (m.set .esp (m.reg .esp + 4)) (load32 m.mem (m.reg .esp)))

/-- The instruction at the program counter. -/
def step (code : List Instr) (m : State) : State ⊕ Exit :=
  match code[m.pc]? with
  | none => .inr (.stray m)
  | some i => exec m i

lemma step_eq {code : List Instr} {m : State} {i : Instr} (h : code[m.pc]? = some i) :
    step code m = exec m i := by
  rw [step, h]

/-- An instruction of a routine, and the rest of it. -/
lemma returns_of_exec {code : List Instr} {m m' : State} {i : Instr} {e : Exit} (k : ℕ)
    (hpc : m.pc = k) (hcode : code[k]? = some i) (hexec : exec m i = .inl m')
    (h : Loop.Returns (step code) m' e) : Loop.Returns (step code) m e := by
  apply Loop.Returns.next _ h
  rw [← hexec]
  apply step_eq
  rw [hpc, hcode]

namespace State

variable (m : State)

@[simp] lemma set_self (r : Reg) (v : UInt32) : (m.set r v).reg r = v := Function.update_self _ _ _

lemma set_of_ne {r r' : Reg} (v : UInt32) (h : r' ≠ r) : (m.set r v).reg r' = m.reg r' :=
  Function.update_of_ne h _ _

@[simp] lemma set_mem (r : Reg) (v : UInt32) : (m.set r v).mem = m.mem := rfl

@[simp] lemma set_pc (r : Reg) (v : UInt32) : (m.set r v).pc = m.pc := rfl

@[simp] lemma next_reg : m.next.reg = m.reg := rfl

@[simp] lemma next_mem : m.next.mem = m.mem := rfl

@[simp] lemma next_zf : m.next.zf = m.zf := rfl

@[simp] lemma next_pc : m.next.pc = m.pc + 1 := rfl

@[simp] lemma pop_mem (r : Reg) : (m.pop r).mem = m.mem := rfl

@[simp] lemma pop_pc (r : Reg) : (m.pop r).pc = m.pc := rfl

@[simp] lemma pop_self (r : Reg) : (m.pop r).reg r = load32 m.mem (m.reg .esp) := set_self _ _ _

lemma pop_esp {r : Reg} (h : r ≠ .esp) : (m.pop r).reg .esp = m.reg .esp + 4 := by
  rw [pop, set_of_ne _ _ h.symm, set_self]

@[simp] lemma inc_self (r : Reg) : (m.inc r).reg r = m.reg r + 1 := set_self _ _ _

lemma inc_of_ne {r r' : Reg} (h : r' ≠ r) : (m.inc r).reg r' = m.reg r' := set_of_ne _ _ h

@[simp] lemma inc_zf (r : Reg) : (m.inc r).zf = decide (m.reg r + 1 = 0) := rfl

lemma pop_of_ne {r r' : Reg} (h : r' ≠ r) (hsp : r' ≠ .esp) : (m.pop r).reg r' = m.reg r' := by
  rw [pop, set_of_ne _ _ h, set_of_ne _ _ hsp]

end State

/-! ## Jumps -/

section Jump

variable {m : State} (target : ℕ)

lemma exec_jz_taken (h : m.zf = true) : exec m (.jz target) = .inl { m with pc := target } :=
  congrArg Sum.inl (if_pos h)

lemma exec_jz_next (h : m.zf = false) : exec m (.jz target) = .inl m.next :=
  congrArg Sum.inl (if_neg (Bool.eq_false_iff.mp h))

lemma exec_jnz_taken (h : m.zf = false) : exec m (.jnz target) = .inl { m with pc := target } :=
  congrArg Sum.inl (if_neg (Bool.eq_false_iff.mp h))

lemma exec_jnz_next (h : m.zf = true) : exec m (.jnz target) = .inl m.next :=
  congrArg Sum.inl (if_pos h)

end Jump

end X86
