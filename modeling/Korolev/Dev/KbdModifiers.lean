import Korolev.Dev.KbdDecode

set_option relaxedAutoImplicit false
set_option autoImplicit false

/-!
# Modifier keys that are held down

A keyboard has two shift, two control and two alt keys, and the driver one flag for each pair.
`kbd_interrupt` sets the flag to what the last code of either key says. That is wrong when one key
of the pair is released while the other is still held down. The handler does not look at the prefix
either: `0xE0 0x2a` and `0xE0 0x36`, the codes of no shift key, change the flag as well.

## Main definitions

* `Korolev.Key`, `Korolev.KbdPorts.source` — a key, and the one a scan code is from.
* `Korolev.heldStep` — a scan code, beside the keys that are held down.
* `Korolev.Alternates` — a key is pressed and released in turns.
* `Korolev.heldModifiers` — the modifiers that are held down.
* `Korolev.TellsPair` — the scan code says what becomes of the pair.

## Main results

* `Korolev.next_eq_iff` — when the rule of the driver is right about one scan code.
* `Korolev.kbd_modifiers_iff` — when the flags follow the keys that are held down.
-/

namespace Korolev

/-! ## Keys -/

/-- A key: whether its codes have the prefix `0xE0`, and its code. -/
abbrev Key := Bool × BYTE

/-- The key a scan code is from. -/
def KbdPorts.source (p : KbdPorts) : Key := (p.prefixed, p.key)

/-- The keys that are held down after a scan code. -/
def heldAfter (held : Key → Bool) (p : KbdPorts) : Key → Bool :=
  Function.update held p.source p.pressed

/-- The interrupt for a scan code, beside the keys that are held down. -/
def heldStep (st : Kbd × (Key → Bool)) (p : KbdPorts) : Kbd × (Key → Bool) :=
  (kbdInterrupt st.1 p, heldAfter st.2 p)

/-- The controller has a scan code, of a key that is pressed if it was not held down and released if
it was. -/
def Alternates (st : Kbd × (Key → Bool)) (p : KbdPorts) : Prop :=
  p.Ready ∧ p.pressed = !st.2 p.source

/-- The modifiers that are held down, with either key. -/
def heldModifiers (held : Key → Bool) : Modifiers where
  ctrl := held (false, 0x1d) || held (true, 0x1d)
  alt := held (false, 0x38) || held (true, 0x38)
  shift := held (false, 0x2a) || held (false, 0x36)

/-- The other key of the pair: the shift keys have two codes, the control and alt keys differ in the
prefix. -/
def Key.twin (c : Key) : Key :=
  if c.2 = 0x2a then (c.1, 0x36)
  else if c.2 = 0x36 then (c.1, 0x2a)
  else (!c.1, c.2)

/-- The scan code says what becomes of the pair: a modifier key is released while the other one is
not held down, and a code that looks like that of a shift key but for its prefix does not change
the flag. -/
def TellsPair (held : Key → Bool) (p : KbdPorts) : Prop :=
  p.Modifier →
    if p.prefixed = true ∧ (p.key = 0x2a ∨ p.key = 0x36) then
      p.pressed = (heldModifiers held).shift
    else p.pressed = true ∨ held p.source.twin = false

instance (held : Key → Bool) (p : KbdPorts) : Decidable (TellsPair held p) :=
  inferInstanceAs (Decidable (_ → _))

/-! ## One scan code -/

lemma flag_inj {b b' : Bool} : flag b = flag b' ↔ b = b' := by
  revert b b'
  decide

/-- The flags of the driver are those of one set of modifiers only. -/
lemma Kbd.Holds.iff_eq {k : Kbd} {m m' : Modifiers} (h : k.Holds m) : k.Holds m' ↔ m = m' := by
  constructor
  · intro h'
    obtain ⟨c, a, s⟩ := m
    obtain ⟨c', a', s'⟩ := m'
    obtain rfl : c = c' := flag_inj.mp (h.ctrl.symm.trans h'.ctrl)
    obtain rfl : a = a' := flag_inj.mp (h.alt.symm.trans h'.alt)
    obtain rfl : s = s' := flag_inj.mp (h.shift.symm.trans h'.shift)
    rfl
  · rintro rfl
    exact h

lemma pressed_or_iff (v other : Bool) : (other = true → v = true) ↔ v = true ∨ other = false := by
  revert v other
  decide

/-- **When the rule of the driver is right** about what becomes of the modifiers. -/
lemma next_eq_iff (held : Key → Bool) (p : KbdPorts) :
    (heldModifiers held).next p = heldModifiers (heldAfter held p) ↔ TellsPair held p := by
  unfold Modifiers.next TellsPair KbdPorts.Modifier heldAfter KbdPorts.source Key.twin
  by_cases h2a : p.key = 0x2a
  · cases p.prefixed with
    | false => simp [heldModifiers, h2a, Function.update, pressed_or_iff]
    | true => simp [heldModifiers, h2a, Function.update]
  by_cases h36 : p.key = 0x36
  · cases p.prefixed with
    | false => simp [heldModifiers, h36, Function.update, pressed_or_iff]
    | true => simp [heldModifiers, h36, Function.update]
  by_cases h1d : p.key = 0x1d
  · cases p.prefixed with
    | false => simp [heldModifiers, h1d, Function.update, pressed_or_iff]
    | true => simp [heldModifiers, h1d, Function.update, pressed_or_iff]
  by_cases h38 : p.key = 0x38
  · cases p.prefixed with
    | false => simp [heldModifiers, h38, Function.update, pressed_or_iff]
    | true => simp [heldModifiers, h38, Function.update, pressed_or_iff]
  · simp [heldModifiers, h2a, h36, h1d, h38, Function.update, Ne.symm h2a, Ne.symm h36,
      Ne.symm h1d, Ne.symm h38]

/-- The scan codes that keep the flags in step with the keys that are held down. -/
lemma holds_heldStep {st : Kbd × (Key → Bool)} (h : st.1.Holds (heldModifiers st.2)) {p : KbdPorts}
    (hp : p.Ready) :
    (heldStep st p).1.Holds (heldModifiers (heldStep st p).2) ↔ TellsPair st.2 p := by
  rw [← next_eq_iff]
  exact (kbdInterrupt_modifiers h hp).iff_eq

/-! ## Streams -/

/-- **The modifier flags.** From the flags that `kbd_setup` sets, for every stream of scan codes in
which each key is pressed and released in turns: after every code, `shift`, `ctrl` and `alt` are
set exactly while one of their two keys is held down, iff every code says what becomes of its
pair. -/
theorem kbd_modifiers_iff (k₀ : Kbd) (hk : k₀.ctrl = 0 ∧ k₀.alt = 0 ∧ k₀.shift = 0)
    (ps : List KbdPorts) (hps : Run.Along heldStep Alternates (k₀, fun _ => false) ps) :
    Run.Along heldStep (fun st p => (heldStep st p).1.Holds (heldModifiers (heldStep st p).2))
      (k₀, fun _ => false) ps ↔
    Run.Along heldStep (fun st p => TellsPair st.2 p) (k₀, fun _ => false) ps := by
  have hboot : k₀.Holds (heldModifiers fun _ => false) := ⟨hk.1, hk.2.1, hk.2.2⟩
  exact Run.along_kept_iff_of_ok (I := fun _ => True)
    (J := fun st => st.1.Holds (heldModifiers st.2)) (fun _ _ _ _ => trivial)
    (fun st p _ hp h => holds_heldStep h hp.1) trivial hboot hps

/-- The left shift key is held down while `a` is typed, then the right control key. -/
theorem kbd_modifiers_iff_typed :
    let ps : List KbdPorts :=
      [⟨1, 0x2a, 0⟩, ⟨1, 0x1e, 0⟩, ⟨1, 0x9e, 0⟩, ⟨1, 0xaa, 0⟩, ⟨1, 0xE0, 0x1d⟩, ⟨1, 0xE0, 0x9d⟩]
    Run.Along heldStep (fun st p => (heldStep st p).1.Holds (heldModifiers (heldStep st p).2))
      (Kbd.boot, fun _ => false) ps := by
  refine (kbd_modifiers_iff .boot ⟨rfl, rfl, rfl⟩ _ ?_).mpr ?_
  · refine ⟨?_, ?_, ?_, ?_, ?_, ?_, trivial⟩ <;> exact ⟨by decide, by decide⟩
  · refine ⟨?_, ?_, ?_, ?_, ?_, ?_, trivial⟩ <;> decide

/-- The left shift key is pressed, then the right one is pressed and released: the flag is `0` while
the left one is still held down. -/
theorem kbd_shift_lost :
    let ps : List KbdPorts := [⟨1, 0x2a, 0⟩, ⟨1, 0x36, 0⟩, ⟨1, 0xb6, 0⟩]
    let st := Run.run heldStep (Kbd.boot, fun _ => false) ps
    Run.Along heldStep Alternates (Kbd.boot, fun _ => false) ps ∧
    st.2 (false, 0x2a) = true ∧ st.1.shift = 0 ∧ ¬st.1.Holds (heldModifiers st.2) := by
  refine ⟨⟨⟨?_, ?_⟩, ⟨?_, ?_⟩, ⟨?_, ?_⟩, trivial⟩, by decide, by decide, fun h => ?_⟩
  iterate 6 decide
  exact absurd h.shift (by decide)

end Korolev
