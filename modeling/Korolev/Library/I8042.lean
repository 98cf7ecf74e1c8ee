import Mathlib.Data.List.Basic
import Mathlib.Tactic.Common

set_option relaxedAutoImplicit false
set_option autoImplicit false

/-!
# The 8042 keyboard controller

The controller has an input buffer, which a program writes commands and data to, and an output
buffer, which it reads. Each holds one byte, and the status register says whether it does. The
controller takes what is in the input buffer when it gets to it. Answers to commands and the bytes
of the devices at its two ports go to the same output buffer: who finds it empty fills it, and a
command that has an answer waits until it is empty. A port that is switched off does not send.

The bits of the configuration that switch the ports off are kept apart from the rest of it. The self
test is taken to leave the configuration alone. Reading the configuration, the output port and
writing to the second port are not covered; the commands for them do nothing here.

## Main definitions

* `I8042` — the buffers, the configuration, and what was sent to the first port.
* `I8042.take` — the controller takes what is in its input buffer.
* `I8042.receive` — the device at a port sends a byte.

## Main results

* `I8042.receive_of_off`, `I8042.receive_of_full` — when a port cannot send.
* `I8042.input_take`, `I8042.output_take_of_full` — when the controller is held up, and by what.
-/

/-- Where the byte in the output buffer is from. -/
inductive I8042.Source where
  | controller
  | port1
  | port2
  deriving DecidableEq

/-- A controller. A byte in the input buffer is a command or data; data are for the configuration if
a command said so, and else for the device at the first port. -/
structure I8042 where
  input : Option (Bool × UInt8)
  output : Option (I8042.Source × UInt8)
  config : UInt8
  off1 : Bool
  off2 : Bool
  expecting : Bool
  sent : List UInt8
  deriving DecidableEq

namespace I8042

/-- The status register: bit 0 for the output buffer and bit 1 for the input buffer. -/
def status (c : I8042) : UInt8 :=
  (if c.output.isSome then 1 else 0) ||| (if c.input.isSome then 2 else 0)

/-- A read of the data port: the output buffer is empty behind it. What is read from an empty buffer
is not covered. -/
def read (c : I8042) : (Source × UInt8) × I8042 :=
  (c.output.getD (.controller, 0), { c with output := none })

/-- A write to the command port or the data port. -/
def write (c : I8042) (command : Bool) (v : UInt8) : I8042 := { c with input := some (command, v) }

/-- The controller does a command. It answers the tests only. -/
def command (answer : UInt8 → UInt8) (c : I8042) (v : UInt8) : I8042 :=
  if v = 0xAA ∨ v = 0xAB then { c with output := some (.controller, answer v) }
  else if v = 0xAD then { c with off1 := true }
  else if v = 0xAE then { c with off1 := false }
  else if v = 0xA7 then { c with off2 := true }
  else if v = 0xA8 then { c with off2 := false }
  else if v = 0x60 then { c with expecting := true }
  else c

/-- The controller takes what is in the input buffer, unless it is a command whose answer has to
wait. -/
def take (answer : UInt8 → UInt8) (c : I8042) : I8042 :=
  match c.input with
  | none => c
  | some (true, v) =>
    if (v = 0xAA ∨ v = 0xAB) ∧ c.output.isSome then c
    else command answer { c with input := none, expecting := false } v
  | some (false, v) =>
    if c.expecting then
      { c with
        input := none, config := v, off1 := v.toBitVec.getLsbD 4, off2 := v.toBitVec.getLsbD 5
        expecting := false }
    else { c with input := none, sent := c.sent ++ [v] }

/-- A port is switched on. -/
def on (c : I8042) : Source → Bool
  | .controller => false
  | .port1 => !c.off1
  | .port2 => !c.off2

/-- The device at a port sends a byte, if it can. -/
def receive (c : I8042) (src : Source) (v : UInt8) : I8042 :=
  if c.on src ∧ c.output = none then { c with output := some (src, v) } else c

section Facts

variable {c : I8042}

/-- The output buffer has a byte iff the status says so. -/
lemma status_and_one (c : I8042) : c.status &&& 1 ≠ 0 ↔ c.output.isSome := by
  unfold status
  split_ifs with h1 h2 h2
  · exact iff_of_true (by decide) h1
  · exact iff_of_true (by decide) h1
  · exact iff_of_false (by decide) h1
  · exact iff_of_false (by decide) h1

/-- The input buffer has a byte iff the status says so. -/
lemma status_and_two (c : I8042) : c.status &&& 2 ≠ 0 ↔ c.input.isSome := by
  unfold status
  split_ifs with h1 h2 h2
  · exact iff_of_true (by decide) h2
  · exact iff_of_false (by decide) h2
  · exact iff_of_true (by decide) h2
  · exact iff_of_false (by decide) h2

/-- A port that is switched off does not send. -/
lemma receive_of_off {src : Source} (h : c.on src = false) (v : UInt8) : c.receive src v = c :=
  if_neg fun hon => Bool.false_ne_true (h.symm.trans hon.1)

/-- No port sends while the output buffer is full. -/
lemma receive_of_full (h : c.output ≠ none) (src : Source) (v : UInt8) : c.receive src v = c :=
  if_neg fun hon => h hon.2

/-- A byte from a port changes the output buffer only. -/
lemma receive_eq (c : I8042) (src : Source) (v : UInt8) :
    ∃ output, c.receive src v = { c with output := output } := by
  unfold receive
  split_ifs
  · exact ⟨_, rfl⟩
  · exact ⟨c.output, rfl⟩

/-- **The controller is not held up** unless an answer has to wait: behind it the input buffer is
empty. -/
lemma input_take {answer : UInt8 → UInt8}
    (h : ∀ v, c.input = some (true, v) → v = 0xAA ∨ v = 0xAB → c.output = none) :
    (c.take answer).input = none := by
  unfold take
  split
  · assumption
  · next v hin =>
    rw [if_neg fun hwait => by rw [h v hin hwait.1] at hwait; exact Bool.false_ne_true hwait.2]
    unfold command
    split_ifs <;> rfl
  · split_ifs <;> rfl

/-- A full output buffer stays as it is when the controller takes something. -/
lemma output_take_of_full {answer : UInt8 → UInt8} (h : c.output ≠ none) :
    (c.take answer).output = c.output := by
  have hsome : c.output.isSome := Option.isSome_iff_ne_none.mpr h
  unfold take
  split
  · rfl
  · next v hin =>
    by_cases htest : v = 0xAA ∨ v = 0xAB
    · rw [if_pos ⟨htest, hsome⟩]
    · rw [if_neg fun hwait => htest hwait.1, command, if_neg htest]
      split_ifs <;> rfl
  · split_ifs <;> rfl

end Facts

end I8042
