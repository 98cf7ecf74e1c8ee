import Korolev.Base

set_option relaxedAutoImplicit false
set_option autoImplicit false

/-!
# The keyboard

`dev/kbd.c` keeps the key events that were not yet read in `kbd_stack`, a stack of 512 entries
that grows downwards from its last entry: `kbd_stack_sp` is the entry the next event goes to, and
an event is read by moving it up first. The interrupt handler decodes one scan code; the
modifier keys only set their flag.

`kbd_event_t` is packed into two bytes, the key code and the byte of the bit-fields, which the
compiler allocates from the least significant bit on.

## Main definitions

* `Korolev.KbdEvent` — `kbd_event_t`, with its bit-fields.
* `Korolev.Kbd` — the globals of `dev/kbd.c`.
* `Korolev.kbdInterrupt`, `Korolev.kbdReset`, `Korolev.kbdAvail`, `Korolev.kbdPop` — its functions.
-/

namespace Korolev

/-! ## Events -/

/-- `kbd_event_t`: the key code and the byte that holds the bit-fields. -/
structure KbdEvent where
  keycode : BYTE
  flags : BYTE
  deriving DecidableEq, Repr

namespace KbdEvent

/-- The one-bit field at bit `i`. -/
def bit (k : KbdEvent) (i : BYTE) : BYTE := (k.flags >>> i) &&& 1

/-- Assignment to the one-bit field at bit `i`, which keeps the lowest bit of the value. -/
def setBit (k : KbdEvent) (i v : BYTE) : KbdEvent :=
  { k with flags := (k.flags &&& ~~~(1 <<< i)) ||| ((v &&& 1) <<< i) }

/-- `k.release` -/
def release (k : KbdEvent) : BYTE := k.bit 0

/-- `k.ctrl` -/
def ctrl (k : KbdEvent) : BYTE := k.bit 1

/-- `k.alt` -/
def alt (k : KbdEvent) : BYTE := k.bit 2

/-- `k.shift` -/
def shift (k : KbdEvent) : BYTE := k.bit 3

/-- `k.special` -/
def special (k : KbdEvent) : BYTE := k.bit 4

/-- `*((WORD*)(&k))` -/
def word (k : KbdEvent) : WORD := k.keycode.toUInt16 ||| (k.flags.toUInt16 <<< 8)

/-- Bit `j` of the byte that holds the bit-fields. -/
def testBit (k : KbdEvent) (j : ℕ) : Bool := k.flags.toBitVec.getLsbD j

/-- Two events are equal iff their key codes and all bits of their flags are. -/
lemma ext_testBit {e e' : KbdEvent} (hkey : e.keycode = e'.keycode)
    (hflags : ∀ j < 8, e.testBit j = e'.testBit j) : e = e' := by
  obtain ⟨kc, f⟩ := e
  obtain ⟨kc', f'⟩ := e'
  obtain rfl : kc = kc' := hkey
  congr 1
  exact UInt8.toBitVec_inj.mp (BitVec.eq_of_getLsbD_eq hflags)

/-- The lowest bit of a byte, moved to bit `i`. -/
lemma getLsbD_shiftLeft_one (v : BYTE) {i : BYTE} (hi : i.toNat < 8) {j : ℕ} (hj : j < 8) :
    ((v &&& 1) <<< i).toBitVec.getLsbD j = (decide (j = i.toNat) && v.toBitVec.getLsbD 0) := by
  have h8 : (i.toBitVec % 8).toNat = i.toNat := by
    rw [BitVec.toNat_umod, UInt8.toNat_toBitVec]
    exact Nat.mod_eq_of_lt hi
  rw [UInt8.toBitVec_shiftLeft, BitVec.getLsbD_shiftLeft', h8, UInt8.toBitVec_and,
    BitVec.getLsbD_and]
  by_cases h : j = i.toNat
  · subst h
    simp [hj]
  · simp only [show UInt8.toBitVec 1 = 1#8 from rfl, BitVec.getLsbD_one]
    by_cases hlt : j < i.toNat
    · simp [h, hlt]
    · have hne : j - i.toNat ≠ 0 := by omega
      simp [h, hne]

/-- Assignment to a field sets its bit to the lowest bit of the value and leaves the other bits
alone. -/
lemma testBit_setBit (e : KbdEvent) {i : BYTE} (hi : i.toNat < 8) (v : BYTE) {j : ℕ}
    (hj : j < 8) : (e.setBit i v).testBit j =
      if j = i.toNat then v.toBitVec.getLsbD 0 else e.testBit j := by
  have hone := getLsbD_shiftLeft_one 1 hi hj
  rw [UInt8.and_self] at hone
  simp only [testBit, setBit, UInt8.toBitVec_or, UInt8.toBitVec_and, UInt8.toBitVec_not,
    BitVec.getLsbD_or, BitVec.getLsbD_and, BitVec.getLsbD_not, hone,
    getLsbD_shiftLeft_one v hi hj]
  by_cases h : j = i.toNat
  · subst h
    simp
  · simp [h, hj]

end KbdEvent

/-! ## The driver -/

/-- The globals of `dev/kbd.c`. `sp` is the index of `kbd_stack_sp` in `kbd_stack`, whose 512
entries are the first ones of `stack`. -/
structure Kbd where
  stack : ℕ → KbdEvent
  sp : ℕ
  ctrl : BYTE
  alt : BYTE
  shift : BYTE

/-- What the interrupt handler reads from the controller: the status port, and the data port
the first and the second time. -/
structure KbdPorts where
  status : BYTE
  data : BYTE
  data' : BYTE

/-- The part of `kbd_interrupt` that stores an event at `kbd_stack_sp`. The last entry that is
left is overwritten by every later event. -/
def kbdPush (k : Kbd) (kc : LONG) (scancode : BYTE) (spec : LONG) : Kbd :=
  let e := { k.stack k.sp with keycode := kc.toUInt8 }
  let e := e.setBit 0 (scancode &&& 0x80)
  let e := e.setBit 1 k.ctrl
  let e := e.setBit 2 k.alt
  let e := e.setBit 3 k.shift
  let e := e.setBit 4 spec.toUInt8
  { k with
    stack := Function.update k.stack k.sp e
    sp := if k.sp ≠ 0 then k.sp - 1 else k.sp }

/-- `kbd_interrupt(regs)`. Port `0x61` is only acknowledged, and left out. -/
def kbdInterrupt (k : Kbd) (p : KbdPorts) : Kbd :=
  if p.status &&& 1 = 0 then k
  else
    let spec : LONG := if p.data = 0xE0 then 1 else 0
    let scancode := if spec ≠ 0 then p.data' else p.data
    let kc := scancode.toUInt32 &&& ~~~0x80
    let pressed : BYTE := if scancode &&& 0x80 = 0 then 1 else 0
    if kc = 0x2a ∨ kc = 0x36 then { k with shift := pressed }
    else if kc = 0x1d then { k with ctrl := pressed }
    else if kc = 0x38 then { k with alt := pressed }
    else kbdPush k kc scancode spec

/-- The globals after `kbd_setup()`: nothing stored, no modifier pressed. -/
def Kbd.boot : Kbd where
  stack := fun _ => ⟨0, 0⟩
  sp := 511
  ctrl := 0
  alt := 0
  shift := 0

/-- `kbd_reset()` -/
def kbdReset (k : Kbd) : Kbd := { k with sp := 511 }

/-- `kbd_avail()` -/
def kbdAvail (k : Kbd) : LONG := if k.sp ≠ 511 then 1 else 0

/-- An event is available iff the stack pointer is not at the last entry. -/
lemma kbdAvail_ne_zero (k : Kbd) : kbdAvail k ≠ 0 ↔ k.sp ≠ 511 := by
  unfold kbdAvail
  by_cases h : k.sp = 511
  · simp [h]
  · simp [h]

/-- `kbd_pop()` -/
def kbdPop (k : Kbd) : KbdEvent × Kbd := (k.stack (k.sp + 1), { k with sp := k.sp + 1 })

end Korolev
