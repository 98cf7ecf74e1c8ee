import Mathlib.Data.List.Basic
import Mathlib.Tactic.Common

set_option relaxedAutoImplicit false
set_option autoImplicit false

/-!
# The transmitter of a 16550 UART

Bytes written to the holding register wait there in a queue, of sixteen bytes with the FIFOs enabled
and of one without them. The shift register takes the oldest when it is free and sends it over the
line. A byte that is written to a full queue is lost, with the FIFOs; without them it takes the
place of the one that waits.

The first two registers are those of the divisor while the top bit of the line control register is
set. The receiver, interrupts and the time a byte takes are not covered.

## Main definitions

* `Uart` — the registers, the queue, and what was sent.
* `Uart.write`, `Uart.lsr` — a register is written to; the line status register.
* `Uart.load`, `Uart.send` — the shift register takes a byte, and has sent it.
* `Uart.line` — what was sent and what will be.

## Main results

* `Uart.line_load`, `Uart.line_send` — the transmitter keeps the order.
* `Uart.Ready.write` — a byte that is written while there is room will be sent.
-/

/-- A UART as far as it transmits. What was sent and the queue are listed with the oldest first. -/
structure Uart where
  lcr : UInt8
  ier : UInt8
  mcr : UInt8
  dll : UInt8
  dlm : UInt8
  fifos : Bool
  thr : List UInt8
  shift : Option UInt8
  wire : List UInt8

namespace Uart

/-- The first two registers are those of the divisor. -/
def dlab (u : Uart) : Bool := u.lcr.toBitVec.getLsbD 7

/-- How many bytes the queue takes. -/
def room (u : Uart) : ℕ := if u.fifos then 16 else 1

/-- A byte is written to the holding register. -/
def enqueue (u : Uart) (v : UInt8) : Uart :=
  if u.thr.length < u.room then { u with thr := u.thr ++ [v] }
  else if u.fifos then u
  else { u with thr := [v] }

/-- A write to the FIFO control register. Switching the FIFOs on or off empties the queue; the bit
that does so has a meaning with the FIFOs on only. -/
def fcr (u : Uart) (v : UInt8) : Uart :=
  let enable := v.toBitVec.getLsbD 0
  { u with
    fifos := enable
    thr := if (enable && v.toBitVec.getLsbD 2) || enable != u.fifos then [] else u.thr }

/-- A write to a register. -/
def write (u : Uart) (r : ℕ) (v : UInt8) : Uart :=
  match r with
  | 0 => if u.dlab then { u with dll := v } else u.enqueue v
  | 1 => if u.dlab then { u with dlm := v } else { u with ier := v &&& 0x0F }
  | 2 => u.fcr v
  | 3 => { u with lcr := v }
  | 4 => { u with mcr := v &&& 0x1F }
  | _ => u

/-- The line status register: whether the queue is empty, and the shift register with it. -/
def lsr (u : Uart) : UInt8 :=
  (if u.thr = [] then 0x20 else 0) ||| (if u.thr = [] ∧ u.shift = none then 0x40 else 0)

/-- The shift register takes the oldest byte if it is free. -/
def load (u : Uart) : Uart :=
  match u.shift, u.thr with
  | none, c :: cs => { u with shift := some c, thr := cs }
  | _, _ => u

/-- The byte in the shift register has been sent. -/
def send (u : Uart) : Uart :=
  match u.shift with
  | some c => { u with shift := none, wire := u.wire ++ [c] }
  | none => u

/-- What was sent, is sent, and waits. -/
def line (u : Uart) : List UInt8 := u.wire ++ u.shift.toList ++ u.thr

/-- Writes to the first register are bytes to send, and there are FIFOs. -/
structure Ready (u : Uart) : Prop where
  dlab : u.dlab = false
  fifos : u.fifos = true

section Transmit

variable {u : Uart}

/-- Taking a byte keeps the order. -/
@[simp] lemma line_load (u : Uart) : u.load.line = u.line := by
  unfold load
  split
  · next c cs hshift hthr => simp [line, hshift, hthr]
  · rfl

/-- So does sending it. -/
@[simp] lemma line_send (u : Uart) : u.send.line = u.line := by
  unfold send
  split
  · next c hshift => simp [line, hshift]
  · rfl

lemma length_thr_load_le (u : Uart) : u.load.thr.length ≤ u.thr.length := by
  unfold load
  split
  · next c cs hshift hthr => simp [hthr]
  · exact Nat.le_refl _

@[simp] lemma thr_send (u : Uart) : u.send.thr = u.thr := by
  unfold send
  split <;> rfl

lemma Ready.load (h : u.Ready) : u.load.Ready := by
  unfold Uart.load
  split
  · exact ⟨h.dlab, h.fifos⟩
  · exact h

lemma Ready.send (h : u.Ready) : u.send.Ready := by
  unfold Uart.send
  split
  · exact ⟨h.dlab, h.fifos⟩
  · exact h

/-- The queue is empty iff the status says so. -/
lemma lsr_and_iff (u : Uart) : u.lsr &&& 0x20 ≠ 0 ↔ u.thr = [] := by
  unfold lsr
  split_ifs with h1 h2 h2
  · exact iff_of_true (by decide) h1
  · exact iff_of_true (by decide) h1
  · exact (h1 h2.1).elim
  · exact iff_of_false (by decide) h1

/-- **A byte that is written while there is room will be sent**, behind those before it. -/
lemma Ready.write (h : u.Ready) (v : UInt8) (hroom : u.thr.length < 16) :
    u.write 0 v = { u with thr := u.thr ++ [v] } := by
  have hfifo : u.thr.length < u.room := by rwa [room, if_pos h.fifos]
  rw [Uart.write, if_neg (by rw [h.dlab]; exact Bool.false_ne_true), enqueue, if_pos hfifo]

/-- A write makes the queue longer by one at most, and leaves the shift register alone. -/
lemma length_thr_write_zero_le (u : Uart) (v : UInt8) :
    (u.write 0 v).thr.length ≤ u.thr.length + 1 ∧ (u.write 0 v).shift = u.shift := by
  unfold Uart.write enqueue
  split_ifs
  all_goals simp

end Transmit

end Uart
