import Korolev.Kernel.Terminal

set_option relaxedAutoImplicit false
set_option autoImplicit false

/-!
# The hardware cursor

The display controller shows a cursor at the position in two of its registers, which `upd_cur`
programs. The console does so whenever it has moved its own position: at the end of `move_cur`,
unless a string is being put, at the end of `puts`, and in `clear`. A backspace moves the position
too, but `put` returns from it without programming the controller. Inside of a string that is made
up for at its end; a single backspace leaves the cursor one cell behind the position.

## Main definitions

* `Korolev.TextCall`, `Korolev.textStep` — the calls of the console.
* `Korolev.Text.shownCursor` — the position in the registers of the controller.
* `Korolev.CursorAgrees` — it is the position of the console.

## Main results

* `Korolev.cursorAgrees_updCur` — `upd_cur` makes the two agree.
* `Korolev.put_backspace` — a backspace moves the position and nothing else.
* `Korolev.cursor_agrees_iff` — when the two agree after every call.
-/

namespace Korolev

/-- A call of the console. -/
inductive TextCall where
  | clear
  | put (c : BYTE)
  | puts (str : List BYTE)
  deriving DecidableEq

/-- The state after a call. -/
def textStep (s : Text) : TextCall → Text
  | .clear => clear s
  | .put c => put s c
  | .puts str => puts s str

/-- The position in the cursor registers of the display controller. -/
def Text.shownCursor (s : Text) : ℕ := (s.crtc 0x0E).toNat * 256 + (s.crtc 0x0F).toNat

/-- The cursor is shown where the console is. -/
def CursorAgrees (s : Text) : Prop := s.shownCursor = s.cursor

instance (s : Text) : Decidable (CursorAgrees s) := inferInstanceAs (Decidable (_ = _))

/-! ## Programming the controller -/

/-- The registers after `upd_cur`. -/
lemma updCur_crtc (s : Text) :
    let pos : WORD := s.textY.toUInt16 * 80 + s.textX.toUInt16
    (updCur s).crtc 0x0F = (pos &&& 0xff).toUInt8 ∧ (updCur s).crtc 0x0E = (pos >>> 8).toUInt8 := by
  have hport : (0x3D5 : WORD) ≠ 0x3D4 := by decide
  have hreg : (0x0F : BYTE) ≠ 0x0E := by decide
  simp only [updCur, Text.outb, if_true, if_neg hport, Function.update_self,
    Function.update_of_ne hreg, and_self]

/-- The position fits into a word. -/
lemma toNat_pos (s : Text) :
    (s.textY.toUInt16 * 80 + s.textX.toUInt16 : WORD).toNat = s.cursor := by
  have hx := s.textX.toNat_lt
  have hy := s.textY.toNat_lt
  have hmul : (s.textY.toUInt16 * 80 : WORD).toNat = s.textY.toNat * 80 := by
    rw [UInt16.toNat_mul, UInt8.toNat_toUInt16]
    exact Nat.mod_eq_of_lt (by simp; omega)
  rw [UInt16.toNat_add, hmul, UInt8.toNat_toUInt16, Text.cursor]
  exact Nat.mod_eq_of_lt (by omega)

/-- **`upd_cur` shows the cursor where the console is.** -/
lemma cursorAgrees_updCur (s : Text) : CursorAgrees (updCur s) := by
  obtain ⟨hlow, hhigh⟩ := updCur_crtc s
  obtain ⟨hx, hy, -⟩ := updCur_frame s
  have hpos := toNat_pos s
  have hlt := (s.textY.toUInt16 * 80 + s.textX.toUInt16 : WORD).toNat_lt
  rw [CursorAgrees, Text.shownCursor, hlow, hhigh, Text.cursor, hx, hy, ← Text.cursor, ← hpos]
  generalize (s.textY.toUInt16 * 80 + s.textX.toUInt16 : WORD) = pos at hlt
  have hmask : (pos &&& 0xff).toNat = pos.toNat % 256 := by
    rw [UInt16.toNat_and]
    exact Nat.and_two_pow_sub_one_eq_mod _ 8
  have hshift : (pos >>> 8).toNat = pos.toNat / 256 := by
    rw [UInt16.toNat_shiftRight]
    exact Nat.shiftRight_eq_div_pow _ 8
  rw [UInt16.toNat_toUInt8, UInt16.toNat_toUInt8, hmask, hshift]
  omega

lemma updCur_strm (s : Text) : (updCur s).strm = s.strm := by
  have hport : (0x3D5 : WORD) ≠ 0x3D4 := by decide
  simp only [updCur, Text.outb, if_true, if_neg hport]

/-! ## One character -/

/-- `move_cur` changes the position and the screen, and ends with the update of the cursor outside
of strings. -/
lemma moveCur_cases (s : Text) :
    ∃ s', s'.strm = s.strm ∧ moveCur s = if s'.strm = 0 then updCur s' else s' := by
  refine ⟨_, ?_, rfl⟩
  split_ifs <;> rfl

/-- The copy for the serial port changes what was sent and nothing else. -/
lemma serial_eq (s : Text) (c : BYTE) :
    ∃ out, (if s.serialStatus ≠ 0 then serialWrite s c else s) = { s with serialOut := out } := by
  unfold serialWrite
  split_ifs <;> exact ⟨_, rfl⟩

lemma put_lineFeed (s : Text) : ∃ out,
    put s 10 = moveCur { s with serialOut := out, textY := s.textY + 1, textX := 255 } := by
  obtain ⟨out, hserial⟩ := serial_eq s 10
  rw [put, hserial, if_pos rfl]
  exact ⟨out, rfl⟩

/-- Every other character is stored at the position. -/
lemma put_character (s : Text) {c : BYTE} (hlf : c ≠ 10) (hbs : c ≠ 8) : ∃ out,
    put s c = moveCur { s with
      serialOut := out, vram := s.vram.store s.cursor (textCell s.bg s.fg c) } := by
  obtain ⟨out, hserial⟩ := serial_eq s c
  rw [put, hserial, if_neg hlf, if_neg hbs]
  exact ⟨out, rfl⟩

/-- Every character but the backspace ends with `move_cur`. -/
lemma put_eq_moveCur (s : Text) {c : BYTE} (hc : c ≠ 8) :
    ∃ s', s'.strm = s.strm ∧ put s c = moveCur s' := by
  by_cases hlf : c = 10
  · obtain ⟨out, hput⟩ := put_lineFeed s
    rw [hlf, hput]
    refine ⟨_, ?_, rfl⟩
    rfl
  · obtain ⟨out, hput⟩ := put_character s hlf hc
    rw [hput]
    refine ⟨_, ?_, rfl⟩
    rfl

lemma toNat_pos_of_ne_zero {b : BYTE} (hb : b ≠ 0) : 0 < b.toNat := by
  rw [Nat.pos_iff_ne_zero, ← UInt8.toNat_zero]
  exact mt UInt8.toNat_inj.mp hb

/-- **A backspace** moves the position one cell back, up to the first cell, and changes nothing
else. -/
lemma put_backspace (s : Text) : ∃ out x y,
    put s 8 = { s with serialOut := out, textX := x, textY := y } ∧
      y.toNat * 80 + x.toNat = s.cursor - 1 ∧ (s.textX.toNat < 80 → x.toNat < 80) ∧
      y.toNat ≤ s.textY.toNat := by
  obtain ⟨out, hserial⟩ := serial_eq s 8
  have hlf : (8 : BYTE) ≠ 10 := by decide
  rw [put, hserial, if_neg hlf, if_pos rfl, Text.cursor]
  dsimp only
  by_cases hcol : s.textX ≠ 0
  · have hpos := toNat_pos_of_ne_zero hcol
    have hleft := toNat_sub_one_of_pos hpos
    rw [if_pos hcol]
    exact ⟨out, s.textX - 1, s.textY, rfl, by omega, by omega, le_rfl⟩
  · have hzero : s.textX = 0 := not_not.mp hcol
    rw [if_neg hcol, hzero, UInt8.toNat_zero]
    by_cases hrow : s.textY ≠ 0
    · have hpos := toNat_pos_of_ne_zero hrow
      have hup := toNat_sub_one_of_pos hpos
      have h79 : (79 : BYTE).toNat = 79 := rfl
      rw [if_pos hrow]
      exact ⟨out, 79, s.textY - 1, rfl, by omega, by omega, by omega⟩
    · have hzero' : s.textY = 0 := not_not.mp hrow
      rw [if_neg hrow, hzero', UInt8.toNat_zero]
      exact ⟨out, 0, 0, rfl, rfl, id, le_rfl⟩

lemma put_strm (s : Text) (c : BYTE) : (put s c).strm = s.strm := by
  by_cases hc : c = 8
  · obtain ⟨out, x, y, hput, -⟩ := put_backspace s
    rw [hc, hput]
  · obtain ⟨s', hs', hput⟩ := put_eq_moveCur s hc
    obtain ⟨s'', hs'', hmove⟩ := moveCur_cases s'
    rw [hput, hmove, ← hs', ← hs'']
    split_ifs
    · exact updCur_strm s''
    · rfl

/-- Outside of strings, every character but the backspace updates the cursor. -/
lemma cursorAgrees_put {s : Text} (hstrm : s.strm = 0) {c : BYTE} (hc : c ≠ 8) :
    CursorAgrees (put s c) := by
  obtain ⟨s', hs', hput⟩ := put_eq_moveCur s hc
  obtain ⟨s'', hs'', hmove⟩ := moveCur_cases s'
  rw [hput, hmove, if_pos (hs''.trans (hs'.trans hstrm))]
  exact cursorAgrees_updCur s''

/-! ## Calls -/

lemma cursorAgrees_clear (s : Text) : CursorAgrees (clear s) := by
  rw [clear]
  exact cursorAgrees_updCur _

lemma cursorAgrees_puts (s : Text) (str : List BYTE) : CursorAgrees (puts s str) := by
  rw [puts]
  exact cursorAgrees_updCur _

lemma textStep_strm {s : Text} (hstrm : s.strm = 0) (call : TextCall) :
    (textStep s call).strm = 0 := by
  cases call with
  | clear => exact (updCur_strm _).trans hstrm
  | put c => exact (put_strm s c).trans hstrm
  | puts str => exact updCur_strm _

/-- A single backspace is put in the first cell only. -/
def BackspaceAtHome (s : Text) (call : TextCall) : Prop := call = .put 8 → s.cursor = 0

/-- A call keeps the cursor where the console is, unless it is a backspace that moves it. -/
lemma cursorAgrees_textStep {s : Text} (hstrm : s.strm = 0) (h : CursorAgrees s)
    (call : TextCall) : CursorAgrees (textStep s call) ↔ BackspaceAtHome s call := by
  cases call with
  | clear => exact iff_of_true (cursorAgrees_clear s) fun h => by cases h
  | puts str => exact iff_of_true (cursorAgrees_puts s str) fun h => by cases h
  | put c =>
    by_cases hc : c = 8
    · obtain ⟨out, x, y, hput, hcursor, -⟩ := put_backspace s
      have hshown : s.shownCursor = s.cursor := h
      rw [hc, textStep, hput, BackspaceAtHome]
      change s.shownCursor = y.toNat * 80 + x.toNat ↔ _
      rw [hshown, hcursor]
      constructor
      · intro heq _
        omega
      · intro himp
        rw [himp rfl]
    · refine iff_of_true (cursorAgrees_put hstrm hc) fun heq => ?_
      exact absurd (TextCall.put.inj heq) hc

/-- **The hardware cursor.** From any state outside of a string, for every sequence of calls that
starts with `clear`: the cursor is shown where the console is after each of them iff no single
backspace is put anywhere but in the first cell. -/
theorem cursor_agrees_iff (s₀ : Text) (hstrm : s₀.strm = 0) (calls : List TextCall) :
    Run.Along textStep (fun s call => CursorAgrees (textStep s call)) s₀ (.clear :: calls) ↔
      Run.Along textStep BackspaceAtHome s₀ (.clear :: calls) := by
  have hclear : CursorAgrees (textStep s₀ .clear) := cursorAgrees_clear s₀
  have hfirst : BackspaceAtHome s₀ .clear := fun h => by cases h
  rw [Run.along_cons, Run.along_cons]
  refine and_congr (iff_of_true hclear hfirst) ?_
  exact Run.along_kept_iff (I := fun s => s.strm = 0) (J := CursorAgrees)
    (fun s call hs => textStep_strm hs call)
    (fun s call hs h => cursorAgrees_textStep hs h call) (textStep_strm hstrm .clear) hclear calls

/-- The console at boot, with the serial port disabled. -/
def Text.boot : Text where
  textX := 0
  textY := 0
  strm := 0
  fg := 7
  bg := 0
  vram := ⟨fun _ => 0, []⟩
  crtcIndex := 0
  crtc := fun _ => 0
  serialStatus := 0
  serialOut := []

/-- A backspace at the end of a string, and a single one in the first cell. -/
theorem cursor_agrees_iff_string :
    Run.Along textStep (fun s call => CursorAgrees (textStep s call)) .boot
      [.clear, .puts [0x41, 8], .put 8, .put 0x42] := by
  refine (cursor_agrees_iff .boot rfl _).mpr ⟨?_, ?_, ?_, ?_, trivial⟩
  · exact fun h => by cases h
  · exact fun h => by cases h
  · exact fun _ => by decide
  · exact fun h => by cases h

/-- A single backspace behind a character: the cursor is shown in the second cell, the console is in
the first. -/
theorem cursor_left_behind :
    let s := Run.run textStep .boot [.clear, .put 0x41, .put 8]
    s.strm = 0 ∧ s.shownCursor = 1 ∧ s.cursor = 0 ∧ ¬CursorAgrees s := by
  decide

end Korolev
