import Korolev.Kernel.Cursor

set_option relaxedAutoImplicit false
set_option autoImplicit false

/-!
# The attributes on the screen

A cell of the screen is a character in its low byte and an attribute in its high byte, the colours
`bg << 4 | fg`. `put` builds it with `((bg << 4 | fg) << 8) | c`. As `c` is a `char`, it is widened
to an `int` first, and a character from `0x80` on brings its sign along: all bits of the attribute
are set. A cell stays wrong until it is overwritten or scrolled out of the screen.

## Main definitions

* `Korolev.Text.colours` — the attribute for the colours of the console.
* `Korolev.ScreenRight` — every cell of the screen is blank or has the attribute.

## Main results

* `Korolev.textCell_high` — the attribute byte of a stored cell.
* `Korolev.moveCur_spec` — where `move_cur` leaves the cursor, and what it does to the screen.
* `Korolev.screenRight_put` — the characters that keep the screen right.
* `Korolev.screen_attributes_iff` — when every cell has the attribute after every character.
-/

namespace Korolev

/-- The attribute for the colours of the console. -/
def Text.colours (s : Text) : BYTE := s.bg <<< 4 ||| s.fg

/-- A cell that is blank or has the attribute. -/
def CellRight (attr : BYTE) (w : WORD) : Prop := w = 0 ∨ (w >>> 8).toUInt8 = attr

instance (attr : BYTE) (w : WORD) : Decidable (CellRight attr w) :=
  inferInstanceAs (Decidable (_ ∨ _))

/-- All cells of the screen are. -/
def ScreenRight (attr : BYTE) (m : Vram) : Prop := ∀ i < 2000, CellRight attr (m.cell i)

/-! ## Cells -/

/-- The attribute byte of a stored cell: a character from `0x80` on sets all of its bits. -/
lemma textCell_high (bg fg c : BYTE) :
    (textCell bg fg c >>> 8).toUInt8 = (bg <<< 4 ||| fg) ||| if c < 0x80 then 0 else 0xff := by
  have hcell : (textCell bg fg c >>> 8).toUInt8.toBitVec =
      ((((bg.toBitVec.setWidth 32 <<< 4 ||| fg.toBitVec.setWidth 32) <<< 8 |||
        c.toBitVec.signExtend 32).setWidth 16) >>> 8).setWidth 8 := rfl
  have hattr : (bg <<< 4 ||| fg).toBitVec = bg.toBitVec <<< 4 ||| fg.toBitVec := rfl
  have hmsb : c < 0x80 ↔ c.toBitVec.msb = false := by
    rw [UInt8.lt_iff_toNat_lt, BitVec.msb_eq_false_iff_two_mul_lt]
    change c.toNat < 128 ↔ 2 * c.toNat < 2 ^ 8
    omega
  apply UInt8.toBitVec_inj.mp
  rw [hcell, UInt8.toBitVec_or, hattr]
  ext i hi
  have h₁ : 8 + i < 16 := by omega
  have h₂ : i < 16 := by omega
  have h₃ : 8 + i < 32 := by omega
  have hbg : bg.toBitVec.getLsbD (i - 4) = bg.toBitVec[i - 4] := BitVec.getLsbD_eq_getElem _
  have hones : ∀ j (hj : j < 8), (255#8)[j] = true := by decide
  by_cases hc : c.toBitVec.msb = false
  · rw [if_pos (hmsb.mpr hc)]
    simp [hc, hi, BitVec.getLsbD_signExtend, h₁, h₂, hbg]
  · rw [if_neg (mt hmsb.mp hc)]
    simp [hc, hi, BitVec.getLsbD_signExtend, h₁, h₂, h₃, hbg, hones]

lemma or_ones (b : BYTE) : b ||| 0xff = 0xff := by
  apply UInt8.toBitVec_inj.mp
  exact BitVec.or_allOnes

/-- A stored cell has the attribute iff no bits were added to it. -/
lemma cellRight_textCell (bg fg c : BYTE) :
    CellRight (bg <<< 4 ||| fg) (textCell bg fg c) ↔ bg <<< 4 ||| fg = 0xff ∨ c < 0x80 := by
  have hhigh := textCell_high bg fg c
  by_cases hc : c < 0x80
  · rw [if_pos hc, UInt8.or_zero] at hhigh
    exact iff_of_true (.inr hhigh) (.inr hc)
  · rw [if_neg hc, or_ones] at hhigh
    -- the cell is not blank either, as its high byte is not
    have hne : textCell bg fg c ≠ 0 := by
      intro hzero
      rw [hzero] at hhigh
      exact absurd hhigh (by decide)
    rw [CellRight, hhigh, or_iff_right hne, or_iff_left hc]
    exact eq_comm

/-! ## Scrolling -/

/-- Scrolling blanks cells and moves others. -/
lemma ScreenRight.scroll {attr : BYTE} {m : Vram} (h : ScreenRight attr m) :
    ScreenRight attr m.scroll := by
  intro i hi
  rw [Vram.scroll_cell m hi]
  split_ifs with hrow
  · exact h (i + 80) (by omega)
  · exact .inl rfl

/-- A wrong cell below the first row is still on the screen after scrolling. -/
lemma cellRight_of_scroll {attr : BYTE} {m : Vram} (h : ScreenRight attr m.scroll) {i : ℕ}
    (hrow : 80 ≤ i) (hi : i < 2000) : CellRight attr (m.cell i) := by
  have hcell := h (i - 80) (by omega)
  rwa [Vram.scroll_cell m (by omega), if_pos (by omega), Nat.sub_add_cancel hrow] at hcell

/-- A store to the screen. -/
lemma screenRight_store {attr : BYTE} {m : Vram} (h : ScreenRight attr m) {k : ℕ} (hk : k < 2000)
    (w : WORD) : ScreenRight attr (m.store k w) ↔ CellRight attr w := by
  constructor
  · intro h'
    have hcell := h' k hk
    simp only [Vram.store, Function.update_self] at hcell
    exact hcell
  · intro hw i hi
    simp only [Vram.store]
    by_cases hik : i = k
    · rw [hik, Function.update_self]
      exact hw
    · rw [Function.update_of_ne hik]
      exact h i hi

/-! ## One character -/

/-- The position is on the screen, and the colours give the attribute. -/
structure OnScreen (attr : BYTE) (s : Text) : Prop where
  x_lt : s.textX.toNat < 80
  y_lt : s.textY.toNat < 25
  colours : s.colours = attr

lemma OnScreen.cursor_lt {attr : BYTE} {s : Text} (h : OnScreen attr s) : s.cursor < 2000 := by
  have hx := h.x_lt
  have hy := h.y_lt
  rw [Text.cursor]
  omega

lemma outb_colours (s : Text) (port : WORD) (v : BYTE) : (s.outb port v).colours = s.colours := by
  unfold Text.outb
  split_ifs <;> rfl

lemma updCur_colours (s : Text) : (updCur s).colours = s.colours := by
  unfold updCur
  simp only [outb_colours]

/-- The last step of `move_cur` changes neither the position nor the screen. -/
lemma OnScreen.updCur {attr : BYTE} {s : Text} (h : OnScreen attr s) :
    OnScreen attr (if s.strm = 0 then Korolev.updCur s else s) ∧
      (if s.strm = 0 then Korolev.updCur s else s).vram = s.vram := by
  obtain ⟨hx, hy, hv⟩ := updCur_frame s
  split_ifs
  · refine ⟨⟨?_, ?_, (updCur_colours s).trans h.colours⟩, hv⟩
    · rw [hx]
      exact h.x_lt
    · rw [hy]
      exact h.y_lt
  · exact ⟨h, rfl⟩

/-- The two tests of `move_cur`: the next column, or the first one of the next row, and a position
below the screen is moved to its last row, with the screen scrolled. -/
lemma moveCur_tests (s : Text) : ∃ s₁ s₂,
    (s₁.textX.toNat < 80 ∧ s₁.textY.toNat ≤ s.textY.toNat + 1 ∧ s₁.colours = s.colours ∧
      s₁.vram = s.vram) ∧
    s₂ = (if 25 ≤ s₁.textY then scroll { s₁ with textY := 24 } else s₁) ∧
    moveCur s = if s₂.strm = 0 then updCur s₂ else s₂ := by
  refine ⟨_, _, ?_, rfl, rfl⟩
  dsimp only
  split_ifs with hx
  · refine ⟨Nat.zero_lt_succ _, ?_, rfl, rfl⟩
    dsimp only
    rw [UInt8.toNat_add, UInt8.toNat_one]
    exact Nat.mod_le _ _
  · rw [UInt8.le_iff_toNat_le] at hx
    exact ⟨not_le.mp hx, Nat.le_succ _, rfl, rfl⟩

/-- **`move_cur`** brings the position onto the screen, wherever it was. The screen stays as it is,
or is scrolled with the position in the last row or below. -/
lemma moveCur_spec (s : Text) :
    OnScreen s.colours (moveCur s) ∧
      ((moveCur s).vram = s.vram ∨ 24 ≤ s.textY.toNat ∧ (moveCur s).vram = s.vram.scroll) := by
  obtain ⟨s₁, s₂, ⟨hx, hy, hcolours, hvram⟩, hs₂, hmove⟩ := moveCur_tests s
  rw [hmove]
  by_cases hlast : 25 ≤ s₁.textY
  · rw [if_pos hlast] at hs₂
    have h24 : (24 : BYTE).toNat < 25 := by decide
    have hon : OnScreen s.colours s₂ := by
      rw [hs₂]
      exact ⟨hx, h24, hcolours⟩
    have hrow : 25 ≤ s₁.textY.toNat := UInt8.le_iff_toNat_le.mp hlast
    have hscroll : s₂.vram = s.vram.scroll := by
      rw [hs₂, ← hvram]
      rfl
    exact ⟨hon.updCur.1, .inr ⟨by omega, hon.updCur.2.trans hscroll⟩⟩
  · rw [if_neg hlast] at hs₂
    have hlt : s₁.textY.toNat < 25 := by
      rw [UInt8.le_iff_toNat_le] at hlast
      exact not_le.mp hlast
    have hon : OnScreen s.colours s₂ := by
      rw [hs₂]
      exact ⟨hx, hlt, hcolours⟩
    exact ⟨hon.updCur.1, .inl (hon.updCur.2.trans (by rw [hs₂, hvram]))⟩

/-- A backspace stays on the screen, and leaves it alone. -/
lemma OnScreen.backspace {attr : BYTE} {s : Text} (h : OnScreen attr s) :
    OnScreen attr (Korolev.put s 8) ∧ (Korolev.put s 8).vram = s.vram := by
  obtain ⟨out, x, y, hput, -, hx, hy⟩ := put_backspace s
  rw [hput]
  exact ⟨⟨hx h.x_lt, hy.trans_lt h.y_lt, h.colours⟩, rfl⟩

/-- Every byte leaves the position on the screen and the colours as they are. -/
lemma OnScreen.put {attr : BYTE} {s : Text} (h : OnScreen attr s) (c : BYTE) :
    OnScreen attr (Korolev.put s c) := by
  by_cases hbs : c = 8
  · rw [hbs]
    exact h.backspace.1
  rw [← h.colours]
  by_cases hlf : c = 10
  · obtain ⟨out, hput⟩ := put_lineFeed s
    rw [hlf, hput]
    exact (moveCur_spec { s with serialOut := out, textY := s.textY + 1, textX := 255 }).1
  · obtain ⟨out, hput⟩ := put_character s hlf hbs
    rw [hput]
    exact (moveCur_spec { s with
      serialOut := out, vram := s.vram.store s.cursor (textCell s.bg s.fg c) }).1

/-- A line feed leaves the cells alone or scrolls them. -/
lemma screenRight_put_lineFeed {attr : BYTE} {s : Text} (h : ScreenRight attr s.vram) :
    ScreenRight attr (put s 10).vram := by
  obtain ⟨out, hput⟩ := put_lineFeed s
  rw [hput]
  rcases (moveCur_spec _).2 with hsame | ⟨-, hscroll⟩
  · rw [hsame]
    exact h
  · rw [hscroll]
    exact h.scroll

/-- The cell of a character is on the screen behind `move_cur`, in its row or in the one above. -/
lemma screenRight_moveCur {attr : BYTE} {s s' : Text} (hs : OnScreen attr s)
    (h : ScreenRight attr s.vram) (w : WORD) (hy : s'.textY = s.textY)
    (hv : s'.vram = s.vram.store s.cursor w) :
    ScreenRight attr (moveCur s').vram ↔ CellRight attr w := by
  have hstore := screenRight_store h hs.cursor_lt w
  rcases (moveCur_spec s').2 with hsame | ⟨hrow, hscroll⟩
  · rw [hsame, hv]
    exact hstore
  · rw [hscroll, hv]
    refine ⟨fun h' => ?_, fun hw => (hstore.mpr hw).scroll⟩
    have hlast : 80 ≤ s.cursor := by
      rw [hy] at hrow
      rw [Text.cursor]
      omega
    have hcell := cellRight_of_scroll h' hlast hs.cursor_lt
    simp only [Vram.store, Function.update_self] at hcell
    exact hcell

/-- **The characters that keep the screen right** are those without a sign to extend, unless the
attribute has all bits set already. -/
lemma screenRight_put {attr : BYTE} {s : Text} (hs : OnScreen attr s)
    (h : ScreenRight attr s.vram) (c : BYTE) :
    ScreenRight attr (put s c).vram ↔ attr = 0xff ∨ c < 0x80 := by
  by_cases hbs : c = 8
  · rw [hbs, hs.backspace.2]
    exact iff_of_true h (.inr (by decide))
  by_cases hlf : c = 10
  · rw [hlf]
    exact iff_of_true (screenRight_put_lineFeed h) (.inr (by decide))
  · obtain ⟨out, hput⟩ := put_character s hlf hbs
    have hattr : s.bg <<< 4 ||| s.fg = attr := hs.colours
    have hcell := cellRight_textCell s.bg s.fg c
    rw [hattr] at hcell
    rw [hput, ← hcell]
    exact screenRight_moveCur hs h (textCell s.bg s.fg c) rfl rfl

/-! ## Whole runs -/

lemma onScreen_clear (s : Text) : OnScreen s.colours (clear s) := by
  obtain ⟨hx, hy, -⟩ := clear_frame s
  refine ⟨by rw [hx]; decide, by rw [hy]; decide, ?_⟩
  rw [clear]
  exact updCur_colours _

lemma screenRight_clear (attr : BYTE) (s : Text) : ScreenRight attr (clear s).vram := by
  intro i hi
  obtain ⟨-, -, hvram⟩ := clear_frame s
  rw [hvram, Vram.zero_cell, if_pos (by omega)]
  exact .inl rfl

/-- **The attributes on the screen.** From the state after `clear()`, for all colours and all
sequences of bytes put: every cell of the screen is blank or has the attribute for the colours,
right after `clear()` and after every byte, iff all bytes are below `0x80` or all bits of the
attribute are set.

**Proof sketch.** Every byte keeps the position on the screen (`OnScreen.put`), and one that meets
the condition keeps the screen right (`screenRight_put`). One that does not is stored on the screen
with another attribute, and may be scrolled up by one row, but not out of the screen. -/
theorem screen_attributes_iff (s₀ : Text) (cs : List BYTE) :
    (ScreenRight s₀.colours (clear s₀).vram ∧
      Run.Along put (fun s c => ScreenRight s₀.colours (put s c).vram) (clear s₀) cs) ↔
    s₀.colours = 0xff ∨ ∀ c ∈ cs, c < 0x80 := by
  have hclear := screenRight_clear s₀.colours s₀
  have hkept : Run.Along put (fun s c => ScreenRight s₀.colours (put s c).vram) (clear s₀) cs ↔
      Run.Along put (fun _ c => s₀.colours = 0xff ∨ c < 0x80) (clear s₀) cs :=
    Run.along_kept_iff (I := OnScreen s₀.colours) (J := fun s => ScreenRight s₀.colours s.vram)
      (fun s c hs => hs.put c) (fun s c hs h => screenRight_put hs h c) (onScreen_clear s₀)
      hclear cs
  rw [and_iff_right hclear, hkept, Run.along_iff_forall_mem]
  by_cases hall : s₀.colours = 0xff
  · simp only [hall, true_or, implies_true]
  · simp only [hall, false_or]

/-- With the colours at boot, light grey on black, the byte `0xe4` is stored in white on grey. -/
theorem screen_attribute_signed :
    let s := put (clear .boot) 0xe4
    Text.boot.colours = 0x07 ∧ s.vram.cell 0 = 0xffe4 ∧ ¬ScreenRight Text.boot.colours s.vram := by
  refine ⟨by decide, by decide, fun h => ?_⟩
  have hcell := h 0 (by decide)
  revert hcell
  decide

end Korolev
