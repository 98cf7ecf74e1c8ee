import Korolev.Base

set_option relaxedAutoImplicit false
set_option autoImplicit false

/-!
# The text console

`kernel/text.c` drives the 80 × 25 text screen: `put` stores a character at the cursor and moves
it, `scroll` copies the screen up by one row in place, `upd_cur` programs the hardware cursor.
With the first serial port enabled every byte also goes there.

The frame buffer is the words from `0xB8000` on, of which the screen shows the first 2000; its
record carries the list of the indices stored to, so that where the console writes can be stated.
The serial port is taken to accept every byte: the wait for its transmitter is left out.

## Main definitions

* `Korolev.Vram` — the frame buffer, with the indices stored to.
* `Korolev.Text` — the globals of the console and the devices it drives.
* `Korolev.put`, `Korolev.moveCur`, `Korolev.updCur`, `Korolev.scroll`, `Korolev.clear`,
  `Korolev.puts`, `Korolev.putsInt` — the functions of `kernel/text.c`.
* `Korolev.putn16`, `Korolev.putn10` — the characters put for a number.

## Main results

* `Korolev.Vram.scroll_cell` — scrolling moves every row up by one and blanks the last.
* `Korolev.textCell_low` — the character byte of a stored cell.
-/

namespace Korolev

/-! ## The frame buffer -/

/-- The words from `TEXTMEM` on, and the indices of the stores made so far. -/
structure Vram where
  cell : ℕ → WORD
  written : List ℕ

namespace Vram

/-- `TEXTMEM[i] = v` -/
def store (m : Vram) (i : ℕ) (v : WORD) : Vram where
  cell := Function.update m.cell i v
  written := i :: m.written

/-- `for(WORD* a = TEXTMEM + i; …; a++) *a = …;` with `n` iterations left, where `v` is the value
stored, as a function of the memory at that time. -/
def fill (v : (ℕ → WORD) → ℕ → WORD) : (n i : ℕ) → Vram → Vram
  | 0, _, m => m
  | n + 1, i, m => fill v n (i + 1) (m.store i (v m.cell i))

/-- The loop `*a = *(a + 80);` -/
def copyUp (n i : ℕ) (m : Vram) : Vram := fill (fun cell a => cell (a + 80)) n i m

/-- The loop `*a = 0;` -/
def zero (n i : ℕ) (m : Vram) : Vram := fill (fun _ _ => 0) n i m

/-- The frame buffer part of `scroll()`. -/
def scroll (m : Vram) : Vram := zero 80 1920 (copyUp 2000 0 m)

end Vram

/-! ## The console -/

/-- The globals of `kernel/text.c`, the frame buffer, the cursor registers of the display
controller with its index register, and the first serial port. -/
structure Text where
  textX : BYTE
  textY : BYTE
  strm : BYTE
  fg : BYTE
  bg : BYTE
  vram : Vram
  crtcIndex : BYTE
  crtc : BYTE → BYTE
  serialStatus : BYTE
  serialOut : List BYTE

/-- `outb(port, v)` for the two ports of the display controller. -/
def Text.outb (s : Text) (port : WORD) (v : BYTE) : Text :=
  if port = 0x3D4 then { s with crtcIndex := v }
  else if port = 0x3D5 then { s with crtc := Function.update s.crtc s.crtcIndex v }
  else s

/-- `upd_cur()` -/
def updCur (s : Text) : Text :=
  let pos : WORD := s.textY.toUInt16 * 80 + s.textX.toUInt16
  let s := s.outb 0x3D4 0x0F
  let s := s.outb 0x3D5 (pos &&& 0xff).toUInt8
  let s := s.outb 0x3D4 0x0E
  s.outb 0x3D5 (pos >>> 8).toUInt8

/-- `scroll()` -/
def scroll (s : Text) : Text := { s with vram := s.vram.scroll }

/-- `clear()`: zeroes `0x2000` words, the whole text memory. -/
def clear (s : Text) : Text :=
  updCur { s with vram := Vram.zero 0x2000 0 s.vram, textX := 0, textY := 0 }

/-- `move_cur()` -/
def moveCur (s : Text) : Text :=
  let s := { s with textX := s.textX + 1 }
  let s := if 80 ≤ s.textX then { s with textX := 0, textY := s.textY + 1 } else s
  let s := if 25 ≤ s.textY then scroll { s with textY := 24 } else s
  if s.strm = 0 then updCur s else s

/-- The word `((bg << 4 | fg) << 8) | c` stored for a character. `char` is signed, so the
character is sign-extended before it is combined. -/
def textCell (bg fg c : BYTE) : WORD :=
  (((bg.toUInt32 <<< 4 ||| fg.toUInt32) <<< 8) ||| c.toInt8.toInt32.toUInt32).toUInt16

/-- `serial_write(0, data)`: a line feed is sent as carriage return and line feed. -/
def serialWrite (s : Text) (data : BYTE) : Text :=
  if data = 10 then { s with serialOut := s.serialOut ++ [13, 10] }
  else { s with serialOut := s.serialOut ++ [data] }

/-- The index of the cell under the cursor. -/
def Text.cursor (s : Text) : ℕ := s.textY.toNat * 80 + s.textX.toNat

/-- `put(c)` -/
def put (s : Text) (c : BYTE) : Text :=
  let s := if s.serialStatus ≠ 0 then serialWrite s c else s
  if c = 10 then
    -- `move_cur` increments `text_x`, which wraps to `0`
    moveCur { s with textY := s.textY + 1, textX := 255 }
  else if c = 8 then
    if s.textX ≠ 0 then { s with textX := s.textX - 1 }
    else if s.textY ≠ 0 then { s with textY := s.textY - 1, textX := 79 }
    else { s with textX := 0 }
  else moveCur { s with vram := s.vram.store s.cursor (textCell s.bg s.fg c) }

/-- `puts(s)` for a string with the given bytes before its terminator. -/
def puts (s : Text) (str : List BYTE) : Text :=
  let s := str.foldl put { s with strm := 1 }
  updCur { s with strm := 0 }

/-- `puts_int(s)`: `puts` without the final cursor update. -/
def putsInt (s : Text) (str : List BYTE) : Text :=
  let s := str.foldl put { s with strm := 1 }
  { s with strm := 0 }

/-! ## Numbers -/

/-- `"0123456789abcdef"` -/
def hexMap : List BYTE :=
  [0x30, 0x31, 0x32, 0x33, 0x34, 0x35, 0x36, 0x37, 0x38, 0x39, 0x61, 0x62, 0x63, 0x64, 0x65, 0x66]

/-- The characters the loop of `putn16` puts, with `o` the counter before `o--`. -/
def putn16Loop (n : LONG) : (o : ℕ) → (s : LONG) → List BYTE
  | 0, _ => []
  | o + 1, s =>
    let c := hexMap.getD ((n >>> UInt32.ofNat (o * 4)) &&& 0xf).toNat 0
    if c = 0x30 then (if s ≠ 0 then [c] else []) ++ putn16Loop n o s
    else c :: putn16Loop n o 1

/-- The characters `putn16(n)` puts. -/
def putn16 (n : LONG) : List BYTE := if n = 0 then [0x30] else putn16Loop n 8 0

/-- The string at `buf + i` after the loop of `putn10`, with `i` the counter before `i--` and `buf`
the string so far. A `LONG` has ten digits, so the loop ends by its `break`. -/
def putn10Loop : (i : ℕ) → (n : LONG) → (buf : List BYTE) → List BYTE
  | 0, _, buf => buf
  | i + 1, n, buf =>
    let a := n % 10
    let buf := (0x30 + a.toUInt8) :: buf
    let n := (n - a) / 10
    if n = 0 then buf else putn10Loop i n buf

/-- The characters `putn10(n)` puts. -/
def putn10 (n : LONG) : List BYTE := if n = 0 then [0x30] else putn10Loop 31 n []

/-! ## Scrolling -/

namespace Vram

/-- A loop whose value does not depend on the cells already stored to, as it reads ahead or not
at all. -/
lemma fill_cell {v : (ℕ → WORD) → ℕ → WORD}
    (hv : ∀ cell i x a, i < a → v (Function.update cell i x) a = v cell a) (n : ℕ) :
    ∀ (i : ℕ) (m : Vram) (a : ℕ),
      (fill v n i m).cell a = if i ≤ a ∧ a < i + n then v m.cell a else m.cell a := by
  induction n with
  | zero => intro i m a; rw [if_neg (by omega)]; rfl
  | succ n ih =>
    intro i m a
    rw [fill, ih]
    simp only [store]
    by_cases ha : a = i
    · subst ha
      rw [if_neg (by omega), if_pos (by omega), Function.update_self]
    · rw [Function.update_of_ne ha]
      by_cases hin : i + 1 ≤ a ∧ a < i + 1 + n
      · rw [if_pos hin, if_pos (by omega), hv _ _ _ _ (by omega)]
      · rw [if_neg hin, if_neg (by omega)]

/-- The copy loop reads every cell before it overwrites it. -/
lemma copyUp_cell (n i : ℕ) (m : Vram) (a : ℕ) :
    (copyUp n i m).cell a = if i ≤ a ∧ a < i + n then m.cell (a + 80) else m.cell a := by
  apply fill_cell
  intro cell i x a ha
  exact Function.update_of_ne (by omega) _ _

/-- The blanking loop. -/
lemma zero_cell (n i : ℕ) (m : Vram) (a : ℕ) :
    (zero n i m).cell a = if i ≤ a ∧ a < i + n then 0 else m.cell a := by
  apply fill_cell
  simp

/-- **Scrolling** moves every row up by one and blanks the last. -/
lemma scroll_cell (m : Vram) {a : ℕ} (ha : a < 2000) :
    m.scroll.cell a = if a < 1920 then m.cell (a + 80) else 0 := by
  rw [scroll, zero_cell, copyUp_cell]
  by_cases h : a < 1920
  · rw [if_neg (by omega), if_pos (by omega), if_pos h]
  · rw [if_pos (by omega), if_neg h]

/-- A loop stores to the cells it runs over only. -/
lemma fill_written (v : (ℕ → WORD) → ℕ → WORD) (n : ℕ) : ∀ (i : ℕ) (m : Vram),
    ∀ k ∈ (fill v n i m).written, k ∈ m.written ∨ k < i + n := by
  induction n with
  | zero => exact fun i m k hk => .inl hk
  | succ n ih =>
    intro i m k hk
    rcases ih (i + 1) _ k hk with h | h
    · rcases List.mem_cons.mp h with rfl | h
      · exact .inr (by omega)
      · exact .inl h
    · exact .inr (by omega)

/-- Scrolling stores to the screen only. -/
lemma scroll_written (m : Vram) : ∀ k ∈ m.scroll.written, k ∈ m.written ∨ k < 2000 := by
  intro k hk
  unfold scroll zero copyUp at hk
  rcases fill_written _ 80 1920 _ k hk with h | h
  · exact fill_written _ 2000 0 m k h
  · exact .inr h

end Vram

/-! ## Cells -/

/-- The low byte of a word shifted left by eight bits. -/
lemma toUInt8_shiftLeft_eight (x : LONG) : (x <<< 8).toUInt8 = 0 := by
  rw [← UInt8.toNat_inj, UInt32.toNat_toUInt8, UInt32.toNat_shiftLeft]
  simp [Nat.shiftLeft_eq]

/-- Sign extension keeps the low byte. -/
lemma toUInt8_signExtend (c : BYTE) : c.toInt8.toInt32.toUInt32.toUInt8 = c := by
  apply UInt8.toBitVec_inj.mp
  have h : c.toInt8.toInt32.toUInt32.toUInt8.toBitVec =
      (c.toBitVec.signExtend 32).setWidth 8 := rfl
  rw [h]
  ext i hi
  rw [BitVec.getElem_setWidth, BitVec.getLsbD_signExtend]
  simp [hi, show i < 32 by omega]

/-- The character byte of a stored cell is the character, whatever the colours and the sign
extension do to the other byte. -/
lemma textCell_low (bg fg c : BYTE) : (textCell bg fg c).toUInt8 = c := by
  rw [textCell, UInt32.toUInt8_toUInt16, UInt32.toUInt8_or, toUInt8_shiftLeft_eight,
    toUInt8_signExtend, UInt8.zero_or]

end Korolev
