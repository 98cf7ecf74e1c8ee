import Korolev.Dev.KbdBuffer

set_option relaxedAutoImplicit false
set_option autoImplicit false

/-!
# Decoding scan codes

A scan code is a byte, or the byte `0xE0` and another one. Its low seven bits are the key, and bit
7 says that the key was released. `kbd_interrupt` turns the codes of the modifier keys into flags
and every other code into an event.

The fields of an event have one bit, and assigning to them keeps the lowest bit of the value. For
`release` the handler assigns `scancode & 0x80`, of which that bit is always `0`: the event of a
released key is the event of a pressed one.

## Main definitions

* `Korolev.KbdPorts.code`, `Korolev.KbdPorts.key`, `Korolev.KbdPorts.pressed`,
  `Korolev.KbdPorts.Modifier` — a scan code and what it says.
* `Korolev.Modifiers` — which modifier keys are held down, by the scan codes so far.
* `Korolev.Decodes` — an interrupt stores the event its scan code stands for.

## Main results

* `Korolev.kbdInterrupt_modifiers` — the flags of the driver follow the scan codes.
* `Korolev.decodes_iff` — when one scan code is decoded.
* `Korolev.kbd_decodes_iff` — when all scan codes of a stream are.
-/

namespace Korolev

/-! ## Scan codes -/

namespace KbdPorts

/-- The scan code has the prefix `0xE0`. -/
def prefixed (p : KbdPorts) : Bool := p.data = 0xE0

/-- The scan code, without the prefix. -/
def code (p : KbdPorts) : BYTE := if p.prefixed then p.data' else p.data

/-- The key of the scan code. -/
def key (p : KbdPorts) : BYTE := p.code &&& 0x7f

/-- The key was pressed, not released. -/
def pressed (p : KbdPorts) : Bool := p.code &&& 0x80 = 0

/-- The key is one of the shift, control and alt keys. -/
def Modifier (p : KbdPorts) : Prop :=
  p.key = 0x2a ∨ p.key = 0x36 ∨ p.key = 0x1d ∨ p.key = 0x38

instance (p : KbdPorts) : Decidable p.Modifier := inferInstanceAs (Decidable (_ ∨ _))

/-- The controller has a scan code. -/
def Ready (p : KbdPorts) : Prop := p.status &&& 1 ≠ 0 ∧ p.code ≠ 0xE0

instance (p : KbdPorts) : Decidable p.Ready := inferInstanceAs (Decidable (_ ∧ _))

end KbdPorts

/-- Which modifier keys are held down. -/
structure Modifiers where
  ctrl : Bool
  alt : Bool
  shift : Bool
  deriving DecidableEq

/-- The modifiers after a scan code. -/
def Modifiers.next (m : Modifiers) (p : KbdPorts) : Modifiers :=
  if p.key = 0x2a ∨ p.key = 0x36 then { m with shift := p.pressed }
  else if p.key = 0x1d then { m with ctrl := p.pressed }
  else if p.key = 0x38 then { m with alt := p.pressed }
  else m

/-- A bit as the value of a one-bit field. -/
def flag (b : Bool) : BYTE := if b then 1 else 0

/-- The event says what the scan code and the modifiers say. -/
structure KbdEvent.Reports (e : KbdEvent) (m : Modifiers) (p : KbdPorts) : Prop where
  keycode : e.keycode = p.key
  release : e.release = flag !p.pressed
  special : e.special = flag p.prefixed
  ctrl : e.ctrl = flag m.ctrl
  alt : e.alt = flag m.alt
  shift : e.shift = flag m.shift

/-- The interrupt for a scan code stores nothing for a modifier key, and for every other key one
event, which says what the scan code says. -/
def Decodes (k : Kbd) (m : Modifiers) (p : KbdPorts) : Prop :=
  if p.Modifier then (kbdInterrupt k p).pending = k.pending
  else ∃ e, (kbdInterrupt k p).pending = e :: k.pending ∧ e.Reports m p

/-! ## What the handler computes -/

/-- `scancode & ~0x80` -/
lemma scancode_key (p : KbdPorts) : p.code.toUInt32 &&& ~~~0x80 = p.key.toUInt32 := by
  have hmask : ∀ j : Fin 8, (~~~0x80 : LONG).toBitVec.getLsbD j = (127#8).getLsbD j := by decide
  rw [← UInt32.toBitVec_inj]
  refine BitVec.eq_of_getLsbD_eq fun i hi => ?_
  simp only [UInt32.toBitVec_and, UInt8.toBitVec_toUInt32, BitVec.getLsbD_and,
    BitVec.getLsbD_setWidth, UInt8.toBitVec_and, KbdPorts.key, hi, decide_true, Bool.true_and]
  by_cases h8 : i < 8
  · rw [hmask ⟨i, h8⟩]
    rfl
  · simp [BitVec.getLsbD_of_ge p.code.toBitVec i (by omega)]

/-- The comparisons of the key code. -/
lemma key_eq_iff (p : KbdPorts) :
    (p.key.toUInt32 = 0x2a ↔ p.key = 0x2a) ∧ (p.key.toUInt32 = 0x36 ↔ p.key = 0x36) ∧
    (p.key.toUInt32 = 0x1d ↔ p.key = 0x1d) ∧ (p.key.toUInt32 = 0x38 ↔ p.key = 0x38) := by
  have h : ∀ c : BYTE, p.key.toUInt32 = c.toUInt32 ↔ p.key = c := fun c => UInt8.toUInt32_inj
  exact ⟨h 0x2a, h 0x36, h 0x1d, h 0x38⟩

/-- A one-bit field of an event, by its bit. -/
lemma KbdEvent.bit_eq (e : KbdEvent) {i : BYTE} (hi : i.toNat < 8) :
    e.bit i = flag (e.testBit i.toNat) := by
  unfold KbdEvent.bit KbdEvent.testBit flag
  rw [← UInt8.toBitVec_inj]
  ext j hj
  have hmod : i.toNat % 8 = i.toNat := Nat.mod_eq_of_lt hi
  cases hbit : e.flags.toBitVec.getLsbD i.toNat with
  | false =>
    by_cases h0 : j = 0
    · simp [h0, hmod, hbit]
    · simp [h0]
  | true =>
    by_cases h0 : j = 0
    · simp [h0, hmod, hbit]
    · simp [h0]

@[simp] lemma getElem_flag (b : Bool) : (flag b).toBitVec[0] = b := by
  cases b <;> rfl

/-- The flags of the driver are the modifiers `m`. -/
structure Kbd.Holds (k : Kbd) (m : Modifiers) : Prop where
  ctrl : k.ctrl = flag m.ctrl
  alt : k.alt = flag m.alt
  shift : k.shift = flag m.shift

/-- The fields of the event the handler stores: `release` is never set. -/
lemma kbdEvent_fields {k : Kbd} {m : Modifiers} (h : k.Holds m) (kc : LONG) (scancode : BYTE)
    (b : Bool) :
    (kbdEvent k kc scancode (flag b).toUInt32).keycode = kc.toUInt8 ∧
    (kbdEvent k kc scancode (flag b).toUInt32).release = 0 ∧
    (kbdEvent k kc scancode (flag b).toUInt32).special = flag b ∧
    (kbdEvent k kc scancode (flag b).toUInt32).ctrl = flag m.ctrl ∧
    (kbdEvent k kc scancode (flag b).toUInt32).alt = flag m.alt ∧
    (kbdEvent k kc scancode (flag b).toUInt32).shift = flag m.shift := by
  refine ⟨rfl, ?_, ?_, ?_, ?_, ?_⟩
  · -- the lowest bit of `scancode & 0x80`
    rw [KbdEvent.release, KbdEvent.bit_eq _ (by decide)]
    simp [kbdEvent, KbdEvent.testBit_setBit, flag]
  · rw [KbdEvent.special, KbdEvent.bit_eq _ (by decide)]
    simp [kbdEvent, KbdEvent.testBit_setBit]
  · rw [KbdEvent.ctrl, KbdEvent.bit_eq _ (by decide)]
    simp [kbdEvent, KbdEvent.testBit_setBit, h.ctrl]
  · rw [KbdEvent.alt, KbdEvent.bit_eq _ (by decide)]
    simp [kbdEvent, KbdEvent.testBit_setBit, h.alt]
  · rw [KbdEvent.shift, KbdEvent.bit_eq _ (by decide)]
    simp [kbdEvent, KbdEvent.testBit_setBit, h.shift]

/-- `spec` and `scancode` in the handler. -/
lemma spec_eq (p : KbdPorts) :
    (if p.data = 0xE0 then 1 else 0 : LONG) = (flag p.prefixed).toUInt32 ∧
    (if (if p.data = 0xE0 then 1 else 0 : LONG) ≠ 0 then p.data' else p.data) = p.code := by
  unfold KbdPorts.code KbdPorts.prefixed flag
  by_cases h : p.data = 0xE0
  · simp [h]
  · simp [h]

/-- The event that comes in with a scan code. -/
lemma kbdArrival_eq (k : Kbd) {p : KbdPorts} (h : p.Ready) :
    kbdArrival k p =
      if p.Modifier then none
      else some (kbdEvent k p.key.toUInt32 p.code (flag p.prefixed).toUInt32) := by
  obtain ⟨hspec, hcode⟩ := spec_eq p
  unfold kbdArrival
  dsimp only
  rw [if_neg h.1, hcode, hspec, scancode_key]
  refine if_congr ?_ rfl rfl
  obtain ⟨h2a, h36, h1d, h38⟩ := key_eq_iff p
  rw [h2a, h36, h1d, h38]
  rfl

/-- **The flags of the driver follow the scan codes.** -/
lemma kbdInterrupt_modifiers {k : Kbd} {m : Modifiers} (hm : k.Holds m) {p : KbdPorts}
    (h : p.Ready) : (kbdInterrupt k p).Holds (m.next p) := by
  obtain ⟨hspec, hcode⟩ := spec_eq p
  have hpressed : (if p.code &&& 0x80 = 0 then 1 else 0 : BYTE) = flag p.pressed := by
    unfold KbdPorts.pressed flag
    simp
  unfold kbdInterrupt Modifiers.next
  dsimp only
  obtain ⟨h2a, h36, h1d, h38⟩ := key_eq_iff p
  rw [if_neg h.1, hcode, scancode_key, hpressed]
  simp only [h2a, h36, h1d, h38]
  by_cases hshift : p.key = 0x2a ∨ p.key = 0x36
  · rw [if_pos hshift, if_pos hshift]
    exact ⟨hm.ctrl, hm.alt, rfl⟩
  by_cases hctrl : p.key = 0x1d
  · rw [if_neg hshift, if_neg hshift, if_pos hctrl, if_pos hctrl]
    exact ⟨rfl, hm.alt, hm.shift⟩
  by_cases halt : p.key = 0x38
  · rw [if_neg hshift, if_neg hshift, if_neg hctrl, if_neg hctrl, if_pos halt, if_pos halt]
    exact ⟨hm.ctrl, rfl, hm.shift⟩
  · rw [if_neg hshift, if_neg hshift, if_neg hctrl, if_neg hctrl, if_neg halt, if_neg halt]
    exact ⟨hm.ctrl, hm.alt, hm.shift⟩

/-! ## Decoding -/

/-- **When a scan code is decoded**, while the buffer is not full: if it is that of a modifier key
or says that a key was pressed.

**Proof sketch.** The event that is stored has all its fields right but for `release`, which is
`0`. -/
lemma decodes_iff {k : Kbd} {m : Modifiers} (hinv : k.Inv) (hm : k.Holds m) {p : KbdPorts}
    (hp : p.Ready) (hroom : k.pending.length < 511) :
    Decodes k m p ↔ p.Modifier ∨ p.pressed = true := by
  have hstep : (kbdInterrupt k p).pending = pendingStep k k.pending (.interrupt p) :=
    Kbd.step_pending hinv (show KbdOp.Valid k (.interrupt p) from trivial)
  rw [pendingStep, kbdArrival_eq k hp] at hstep
  unfold Decodes
  by_cases hmod : p.Modifier
  · rw [if_pos hmod] at hstep ⊢
    exact iff_of_true hstep (.inl hmod)
  · obtain ⟨hkey, hrel, hspec, hctrl, halt, hshift⟩ :=
      kbdEvent_fields hm p.key.toUInt32 p.code p.prefixed
    rw [if_neg hmod] at hstep ⊢
    dsimp only at hstep
    rw [if_neg hroom.ne] at hstep
    constructor
    · rintro ⟨e, hpush, hrep⟩
      obtain ⟨rfl, -⟩ := List.cons.inj (hstep.symm.trans hpush)
      have hflag : flag (!p.pressed) = 0 := hrep.release.symm.trans hrel
      cases hpr : p.pressed with
      | false =>
        rw [hpr] at hflag
        exact absurd hflag (by decide)
      | true => exact .inr rfl
    · intro h
      have hpr := h.resolve_left hmod
      refine ⟨_, hstep, ?_, ?_, hspec, hctrl, halt, hshift⟩
      · rw [hkey, UInt8.toUInt8_toUInt32]
      · rw [hrel, hpr]
        rfl

/-- A call, beside the modifiers by the scan codes so far. -/
def decodeStep (st : Kbd × Modifiers) (op : KbdOp) : Kbd × Modifiers :=
  (st.1.step op, match op with
    | .interrupt p => st.2.next p
    | _ => st.2)

/-- The calls of a stream of scan codes: at every interrupt the controller has a scan code and the
buffer is not full. Between the interrupts, events are read or discarded. -/
def Delivers (st : Kbd × Modifiers) (op : KbdOp) : Prop :=
  op.Valid st.1 ∧ ∀ p, op = .interrupt p → p.Ready ∧ st.1.pending.length < 511

/-- **When scan codes are decoded.** For every stream of scan codes from boot: every interrupt
stores nothing for a modifier key, and for every other key one event with the right key code,
release, prefix and modifiers, iff no scan code says that a key other than a modifier was
released. -/
theorem kbd_decodes_iff (ops : List KbdOp)
    (hops : Run.Along decodeStep Delivers (Kbd.boot, ⟨false, false, false⟩) ops) :
    Run.Along decodeStep (fun st op => ∀ p, op = .interrupt p → Decodes st.1 st.2 p)
      (Kbd.boot, ⟨false, false, false⟩) ops ↔
    ∀ p, .interrupt p ∈ ops → p.Modifier ∨ p.pressed = true := by
  have hstep : ∀ st op, st.1.Inv ∧ st.1.Holds st.2 → Delivers st op →
      (decodeStep st op).1.Inv ∧ (decodeStep st op).1.Holds (decodeStep st op).2 := by
    rintro st op ⟨hinv, hm⟩ ⟨hvalid, hready⟩
    refine ⟨hinv.step hvalid, ?_⟩
    cases op with
    | interrupt p => exact kbdInterrupt_modifiers hm (hready p rfl).1
    | pop => exact ⟨hm.ctrl, hm.alt, hm.shift⟩
    | reset => exact ⟨hm.ctrl, hm.alt, hm.shift⟩
  have hone : ∀ st op, st.1.Inv ∧ st.1.Holds st.2 → Delivers st op →
      ((∀ p, op = .interrupt p → Decodes st.1 st.2 p) ↔
        ∀ p, op = .interrupt p → p.Modifier ∨ p.pressed = true) := by
    rintro st op ⟨hinv, hm⟩ ⟨-, hready⟩
    refine forall₂_congr fun p hp => ?_
    exact decodes_iff hinv hm (hready p hp).1 (hready p hp).2
  rw [Run.along_congr_of_ok hstep hone ⟨Kbd.inv_boot, rfl, rfl, rfl⟩ hops,
    Run.along_iff_forall_mem]
  exact ⟨fun h p hp => h _ hp p rfl, fun h op hop p hp => h p (hp ▸ hop)⟩

/-- Shift is pressed, then the key `a`. -/
theorem kbd_decodes_iff_shift_a :
    Run.Along decodeStep (fun st op => ∀ p, op = .interrupt p → Decodes st.1 st.2 p)
      (Kbd.boot, ⟨false, false, false⟩) [.interrupt ⟨1, 0x2a, 0⟩, .interrupt ⟨1, 0x1e, 0⟩] := by
  refine (kbd_decodes_iff _ ?_).mpr ?_
  · refine ⟨⟨trivial, ?_⟩, ⟨trivial, ?_⟩, trivial⟩
    · rintro p ⟨⟩
      decide
    · rintro p ⟨⟩
      decide
  · rintro p hp
    simp only [List.mem_cons, KbdOp.interrupt.injEq, List.not_mem_nil, or_false] at hp
    rcases hp with rfl | rfl
    · decide
    · decide

/-- The key `a` is released: the event stored says that it was pressed. -/
theorem kbd_release_lost :
    Delivers (Kbd.boot, ⟨false, false, false⟩) (.interrupt ⟨1, 0x9e, 0⟩) ∧
    (kbdInterrupt Kbd.boot ⟨1, 0x9e, 0⟩).pending = [⟨0x1e, 0⟩] ∧
    ¬Decodes Kbd.boot ⟨false, false, false⟩ ⟨1, 0x9e, 0⟩ := by
  refine ⟨⟨trivial, ?_⟩, by decide, ?_⟩
  · rintro p ⟨⟩
    decide
  · rintro ⟨e, hpush, hrep⟩
    have hone : (kbdInterrupt Kbd.boot ⟨1, 0x9e, 0⟩).pending = [⟨0x1e, 0⟩] := by decide
    obtain ⟨rfl, -⟩ := List.cons.inj (hone.symm.trans hpush)
    exact absurd hrep.release (by decide)

end Korolev
