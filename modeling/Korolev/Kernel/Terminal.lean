import Korolev.Kernel.Text
import Korolev.Library.Run

set_option relaxedAutoImplicit false
set_option autoImplicit false

/-!
# The console as a terminal

What the console is for: a terminal with 80 columns and unboundedly many rows, seen through a
window of 25 rows that follows the cursor. The terminal keeps everything that was ever written;
the console has only the window, and scrolls it in place when the cursor leaves it at the bottom.

The console reaches column `0` of a new row by letting a byte wrap: `text_x` is set to `255` and
incremented. In the terminal that is a plain assignment.

## Main definitions

* `Korolev.Terminal`, `Korolev.Terminal.put` — the terminal.
* `Korolev.Shows` — the console shows the window of a terminal.

## Main results

* `Korolev.Shows.put` — one byte keeps the two in step.
* `Korolev.console_refines_terminal` — so does every sequence of bytes after `clear()`.
-/

namespace Korolev

/-! ## The terminal -/

/-- A terminal: the cursor is at row `r` and column `x`, the window starts at row `w`. -/
structure Terminal where
  r : ℕ
  x : ℕ
  w : ℕ
  cell : ℕ → ℕ → BYTE

namespace Terminal

/-- The terminal before anything is written. -/
def blank : Terminal := ⟨0, 0, 0, fun _ _ => 0⟩

/-- Column `0` of the next row. The window moves down by one if the row would be below it. -/
def newline (t : Terminal) : Terminal :=
  { t with r := t.r + 1, x := 0, w := if t.w + 24 < t.r + 1 then t.w + 1 else t.w }

/-- One column left, from column `0` to the end of the row above unless that is above the
window. -/
def backspace (t : Terminal) : Terminal :=
  if t.x ≠ 0 then { t with x := t.x - 1 }
  else if t.w < t.r then { t with r := t.r - 1, x := 79 }
  else t

/-- Store a byte at the cursor. -/
def store (t : Terminal) (c : BYTE) : Terminal :=
  { t with cell := Function.update t.cell t.r (Function.update (t.cell t.r) t.x c) }

/-- One byte sent to the terminal. -/
def put (t : Terminal) (c : BYTE) : Terminal :=
  if c = 10 then t.newline
  else if c = 8 then t.backspace
  else if t.x = 79 then (t.store c).newline
  else { t.store c with x := t.x + 1 }

end Terminal

/-! ## The window -/

/-- The console shows the window of the terminal, with the cursor inside, the rows below the
window are still blank, and nothing was stored behind the screen. -/
structure Shows (s : Text) (t : Terminal) : Prop where
  x_eq : s.textX.toNat = t.x
  x_lt : t.x < 80
  y_eq : t.w + s.textY.toNat = t.r
  y_lt : s.textY.toNat < 25
  cells : ∀ i < 25, ∀ j < 80, (s.vram.cell (80 * i + j)).toUInt8 = t.cell (t.w + i) j
  below : ∀ i, t.w + 25 ≤ i → ∀ j, t.cell i j = 0
  written : ∀ k ∈ s.vram.written, k < 2000

/-- The relation looks at the position and the frame buffer only. -/
lemma Shows.congr {s s' : Text} {t : Terminal} (h : Shows s t) (hx : s'.textX = s.textX)
    (hy : s'.textY = s.textY) (hv : s'.vram = s.vram) : Shows s' t := by
  obtain ⟨h1, h2, h3, h4, h5, h6, h7⟩ := h
  exact ⟨by rw [hx, h1], h2, by rw [hy, h3], by rw [hy]; exact h4, by rw [hv]; exact h5, h6,
    by rw [hv]; exact h7⟩

lemma outb_frame (s : Text) (port : WORD) (v : BYTE) :
    (s.outb port v).textX = s.textX ∧ (s.outb port v).textY = s.textY ∧
    (s.outb port v).vram = s.vram := by
  unfold Text.outb
  split_ifs <;> exact ⟨rfl, rfl, rfl⟩

/-- Programming the hardware cursor leaves the screen and the position alone. -/
lemma updCur_frame (s : Text) :
    (updCur s).textX = s.textX ∧ (updCur s).textY = s.textY ∧ (updCur s).vram = s.vram := by
  unfold updCur
  simp only [outb_frame, and_self]

/-- The last step of `move_cur`, the update of the hardware cursor outside of strings. -/
lemma Shows.updCur {s : Text} {t : Terminal} (h : Shows s t) :
    Shows (if s.strm = 0 then Korolev.updCur s else s) t := by
  obtain ⟨hx, hy, hv⟩ := updCur_frame s
  split_ifs
  · exact h.congr hx hy hv
  · exact h

/-- One column or row further. -/
lemma toNat_add_one_of_lt {b : BYTE} (h : b.toNat < 255) : (b + 1).toNat = b.toNat + 1 := by
  rw [UInt8.toNat_add, UInt8.toNat_one]
  omega

/-- One column or row back. -/
lemma toNat_sub_one_of_pos {b : BYTE} (h : 0 < b.toNat) : (b - 1).toNat = b.toNat - 1 := by
  have hone : (1 : BYTE) ≤ b := by
    rw [UInt8.le_iff_toNat_le, UInt8.toNat_one]
    exact h
  rw [UInt8.toNat_sub_of_le _ _ hone, UInt8.toNat_one]

/-- A scrolled screen shows the window one row further down. -/
lemma Shows.scroll_cell {s : Text} {t : Terminal} (h : Shows s t) {i j : ℕ} (hi : i < 25)
    (hj : j < 80) : (s.vram.scroll.cell (80 * i + j)).toUInt8 = t.cell (t.w + 1 + i) j := by
  rw [Vram.scroll_cell _ (by omega)]
  by_cases hlast : i < 24
  · rw [if_pos (by omega), show 80 * i + j + 80 = 80 * (i + 1) + j by omega,
      h.cells (i + 1) (by omega) j hj, show t.w + (i + 1) = t.w + 1 + i by omega]
  · rw [if_neg (by omega), h.below _ (by omega)]
    rfl

/-- The cursor is at column `0` one row further down, which may be the row below the screen:
`move_cur` scrolls if it is, and the terminal moves its window. -/
lemma Shows.newline {s : Text} {t : Terminal} (h : Shows s t) :
    Shows (if 25 ≤ s.textY + 1 then scroll { s with textX := 0, textY := 24 }
      else { s with textX := 0, textY := s.textY + 1 }) t.newline := by
  have hscroll := fun i hi j hj => h.scroll_cell (i := i) (j := j) hi hj
  obtain ⟨hx, hxlt, hy, hylt, hcells, hbelow, hwritten⟩ := h
  have hnext : (s.textY + 1).toNat = s.textY.toNat + 1 := toNat_add_one_of_lt (by omega)
  have hbottom : 25 ≤ s.textY + 1 ↔ s.textY.toNat = 24 := by
    rw [UInt8.le_iff_toNat_le, hnext]
    simp only [UInt8.toNat_ofNat]
    omega
  by_cases hb : s.textY.toNat = 24
  · rw [if_pos (hbottom.mpr hb)]
    have hw : t.newline.w = t.w + 1 := if_pos (by omega)
    refine ⟨rfl, Nat.zero_lt_succ _, ?_, ?_, fun i hi j hj => ?_, fun i hi j => ?_, ?_⟩
    · rw [hw]
      show t.w + 1 + 24 = t.r + 1
      omega
    · show (24 : BYTE).toNat < 25
      decide
    · rw [hw]
      exact hscroll i hi j hj
    · rw [hw] at hi
      exact hbelow i (by omega) j
    · intro k hk
      rcases Vram.scroll_written s.vram k hk with h | h
      · exact hwritten k h
      · exact h
  · rw [if_neg (mt hbottom.mp hb)]
    have hw : t.newline.w = t.w := if_neg (by omega)
    refine ⟨rfl, Nat.zero_lt_succ _, ?_, ?_, ?_, ?_, hwritten⟩
    · rw [hw]
      show t.w + (s.textY + 1).toNat = t.r + 1
      omega
    · show (s.textY + 1).toNat < 25
      omega
    · rw [hw]
      exact hcells
    · rw [hw]
      exact hbelow

/-- Storing a character at the cursor. -/
lemma Shows.store {s : Text} {t : Terminal} (h : Shows s t) (c : BYTE) :
    Shows { s with vram := s.vram.store s.cursor (textCell s.bg s.fg c) } (t.store c) := by
  obtain ⟨hx, hxlt, hy, hylt, hcells, hbelow, hwritten⟩ := h
  refine ⟨hx, hxlt, hy, hylt, fun i hi j hj => ?_, fun i hi j => ?_, fun k hk => ?_⟩
  · simp only [Vram.store, Terminal.store, Text.cursor]
    by_cases hi' : t.w + i = t.r
    · rw [hi', Function.update_self]
      by_cases hj' : j = t.x
      · rw [hj', Function.update_self, show 80 * i + t.x = s.textY.toNat * 80 + s.textX.toNat by
          omega, Function.update_self, textCell_low]
      · rw [Function.update_of_ne hj', Function.update_of_ne (by omega), hcells i hi j hj, hi']
    · rw [Function.update_of_ne hi', Function.update_of_ne (by omega), hcells i hi j hj]
  · change t.w + 25 ≤ i at hi
    simp only [Terminal.store]
    rw [Function.update_of_ne (by omega), hbelow i hi j]
  · rcases List.mem_cons.mp hk with rfl | hk
    · rw [Text.cursor]
      omega
    · exact hwritten k hk

/-- `move_cur` after a character: one column right, or the next row behind column `79`. -/
lemma Shows.moveCur {s : Text} {t : Terminal} (h : Shows s t) :
    Shows (Korolev.moveCur s) (if t.x = 79 then t.newline else { t with x := t.x + 1 }) := by
  have hxeq := h.x_eq
  have hxlt := h.x_lt
  have hx1 : (s.textX + 1).toNat = s.textX.toNat + 1 := toNat_add_one_of_lt (by omega)
  have hwrap : 80 ≤ s.textX + 1 ↔ t.x = 79 := by
    rw [UInt8.le_iff_toNat_le, hx1]
    simp only [UInt8.toNat_ofNat]
    omega
  rw [Korolev.moveCur]
  dsimp only
  by_cases hx : t.x = 79
  · rw [if_pos (hwrap.mpr hx), if_pos hx]
    exact h.newline.updCur
  · have hy : ¬25 ≤ s.textY := by
      have := h.y_lt
      rw [UInt8.le_iff_toNat_le]
      simp only [UInt8.toNat_ofNat]
      omega
    rw [if_neg (mt hwrap.mp hx), if_neg hx, if_neg hy]
    refine Shows.updCur (s := { s with textX := s.textX + 1 })
      ⟨?_, ?_, h.y_eq, h.y_lt, h.cells, h.below, h.written⟩
    · show (s.textX + 1).toNat = t.x + 1
      rw [hx1, hxeq]
    · show t.x + 1 < 80
      omega

/-- `move_cur` after a line feed, with `text_x` at `255`: the increment wraps to `0`. -/
lemma Shows.lineFeed {s : Text} {t : Terminal} (h : Shows s t) :
    Shows (Korolev.moveCur { s with textY := s.textY + 1, textX := 255 }) t.newline := by
  have hwrap : (255 : BYTE) + 1 = 0 := by decide
  have hin : ¬(80 : BYTE) ≤ 0 := by decide
  rw [Korolev.moveCur]
  dsimp only
  rw [hwrap]
  simp only [if_neg hin]
  exact h.newline.updCur

/-- A backspace. At the left edge the console tests `text_y`, the terminal whether the row is
the first of the window. -/
lemma Shows.backspace {s : Text} {t : Terminal} (h : Shows s t) :
    Shows (if s.textX ≠ 0 then { s with textX := s.textX - 1 }
      else if s.textY ≠ 0 then { s with textY := s.textY - 1, textX := 79 }
      else { s with textX := 0 }) t.backspace := by
  obtain ⟨hx, hxlt, hy, hylt, hcells, hbelow, hwritten⟩ := h
  have hx0 : s.textX ≠ 0 ↔ t.x ≠ 0 := by
    rw [← hx, Ne, Ne, ← UInt8.toNat_inj]
    rfl
  have hy0 : s.textY ≠ 0 ↔ t.w < t.r := by
    rw [Ne, ← UInt8.toNat_inj, UInt8.toNat_zero]
    omega
  rw [Terminal.backspace]
  by_cases hcol : t.x ≠ 0
  · rw [if_pos (hx0.mpr hcol), if_pos hcol]
    refine ⟨?_, ?_, hy, hylt, hcells, hbelow, hwritten⟩
    · show (s.textX - 1).toNat = t.x - 1
      rw [toNat_sub_one_of_pos (by omega), hx]
    · show t.x - 1 < 80
      omega
  · rw [if_neg (mt hx0.mp hcol), if_neg hcol]
    by_cases hrow : t.w < t.r
    · have hup : (s.textY - 1).toNat = s.textY.toNat - 1 := toNat_sub_one_of_pos (by omega)
      rw [if_pos (hy0.mpr hrow), if_pos hrow]
      refine ⟨rfl, ?_, ?_, ?_, hcells, hbelow, hwritten⟩
      · show 79 < 80
        omega
      · show t.w + (s.textY - 1).toNat = t.r - 1
        omega
      · show (s.textY - 1).toNat < 25
        omega
    · rw [if_neg (mt hy0.mp hrow), if_neg hrow]
      refine ⟨?_, hxlt, hy, hylt, hcells, hbelow, hwritten⟩
      show 0 = t.x
      omega

/-- The copy sent to the serial port leaves the screen alone. -/
lemma Shows.serial {s : Text} {t : Terminal} (h : Shows s t) (c : BYTE) :
    Shows (if s.serialStatus ≠ 0 then serialWrite s c else s) t := by
  unfold serialWrite
  split_ifs
  · exact h.congr rfl rfl rfl
  · exact h.congr rfl rfl rfl
  · exact h

/-- **One byte keeps console and terminal in step.** -/
lemma Shows.put {s : Text} {t : Terminal} (h : Shows s t) (c : BYTE) :
    Shows (Korolev.put s c) (t.put c) := by
  rw [Korolev.put, Terminal.put]
  dsimp only
  by_cases hlf : c = 10
  · rw [if_pos hlf, if_pos hlf]
    exact (h.serial c).lineFeed
  · rw [if_neg hlf, if_neg hlf]
    by_cases hbs : c = 8
    · rw [if_pos hbs, if_pos hbs]
      exact (h.serial c).backspace
    · rw [if_neg hbs, if_neg hbs]
      exact ((h.serial c).store c).moveCur

/-! ## The refinement -/

/-- The state right after `clear()`, from where the stores are recorded. -/
def cleared (s : Text) : Text :=
  { clear s with vram := { (clear s).vram with written := [] } }

/-- What `clear()` leaves: a blank screen with the cursor in its first cell. -/
lemma clear_frame (s : Text) : (clear s).textX = 0 ∧ (clear s).textY = 0 ∧
    (clear s).vram = Vram.zero 0x2000 0 s.vram := by
  simp only [clear, updCur_frame, and_self]

/-- The cleared screen is the window of the blank terminal. -/
lemma Shows.cleared (s : Text) : Shows (Korolev.cleared s) Terminal.blank := by
  obtain ⟨hx, hy, hv⟩ := clear_frame s
  unfold Korolev.cleared
  constructor
  case x_eq =>
    rw [hx]
    rfl
  case x_lt => exact Nat.zero_lt_succ _
  case y_eq =>
    rw [hy]
    rfl
  case y_lt =>
    rw [hy]
    decide
  case cells =>
    intro i hi j hj
    rw [hv, Vram.zero_cell, if_pos (by omega)]
    rfl
  case below => exact fun _ _ _ => rfl
  case written => exact fun k hk => nomatch hk

/-- **The console refines the terminal.** After `clear()` and any bytes passed to `put`, the
cursor is on the screen, `put` has stored to the screen only, and the screen and the cursor are
the window of the terminal that received the same bytes.

**Proof sketch.** The cleared console shows the blank terminal (`Shows.cleared`) and a byte
keeps the two in step (`Shows.put`); the induction over the bytes is `Run.run_sim`. -/
theorem console_refines_terminal (s₀ : Text) (cs : List BYTE) :
    let s := Run.run put (cleared s₀) cs
    let t := Run.run Terminal.put Terminal.blank cs
    s.textX.toNat < 80 ∧ s.textY.toNat < 25 ∧
    (∀ k ∈ s.vram.written, k < 2000) ∧
    s.textX.toNat = t.x ∧ t.w + s.textY.toNat = t.r ∧
    ∀ i < 25, ∀ j < 80, (s.vram.cell (80 * i + j)).toUInt8 = t.cell (t.w + i) j := by
  intro s t
  have h : Shows s t := by
    apply Run.run_sim_of_forall
    · intro s t c h
      exact h.put c
    · exact Shows.cleared s₀
  refine ⟨?_, h.y_lt, h.written, h.x_eq, h.y_eq, h.cells⟩
  rw [h.x_eq]
  exact h.x_lt

end Korolev
