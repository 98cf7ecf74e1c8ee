import Korolev.Library.Bytes

set_option relaxedAutoImplicit false
set_option autoImplicit false

/-!
# Descriptor tables of the x86

In protected mode the processor finds segments and interrupt handlers in two tables of eight-byte
descriptors. The fields of a descriptor are scattered over its bytes: the base of a segment is in
bytes 2, 3, 4 and 7, its limit in bytes 0 and 1 and half of byte 6, the offset of a gate in bytes 0,
1, 6 and 7. This file is the processor's side: what it makes of eight bytes.

Local tables, system segments and data segments that grow down are not covered; an access through
one of them faults here.

## Main definitions

* `Descriptor.Segment`, `Descriptor.segment` — a segment descriptor, and how it is read.
* `Descriptor.translate` — the linear address of a logical one.
* `Descriptor.Gate`, `Descriptor.gate` — a gate, and how it is read.
* `Descriptor.vector` — the gate of an interrupt vector.

## Main results

* `Descriptor.segment_congr`, `Descriptor.gate_congr` — a descriptor is its eight bytes.
-/

namespace Descriptor

/-- The 32-bit number in four bytes, the lowest first. -/
def join (b0 b1 b2 b3 : UInt8) : ℕ :=
  b0.toNat + 256 * b1.toNat + 65536 * b2.toNat + 16777216 * b3.toNat

/-- The bytes of a 32-bit number, put together again. -/
lemma join_eq (v : UInt32) :
    join v.toUInt8 (v >>> 8).toUInt8 (v >>> 16).toUInt8 (v >>> 24).toUInt8 = v.toNat := by
  have hv := v.toNat_lt
  have h8 : (8 : UInt32).toNat % 32 = 8 := rfl
  have h16 : (16 : UInt32).toNat % 32 = 16 := rfl
  have h24 : (24 : UInt32).toNat % 32 = 24 := rfl
  simp only [join, UInt32.toNat_toUInt8, UInt32.toNat_shiftRight, h8, h16, h24,
    Nat.shiftRight_eq_div_pow]
  omega

/-! ## Segments -/

/-- A segment: its base, its limit in 20 bits, its access byte and its flags, which are in the upper
half of a byte. -/
structure Segment where
  base : ℕ
  limit : ℕ
  access : UInt8
  flags : UInt8
  deriving DecidableEq

/-- The segment descriptor at `a`. -/
def segment (m : ℕ → UInt8) (a : ℕ) : Segment where
  base := join (m (a + 2)) (m (a + 3)) (m (a + 4)) (m (a + 7))
  limit := (m a).toNat + 256 * (m (a + 1)).toNat + 65536 * (m (a + 6) &&& 0x0f).toNat
  access := m (a + 5)
  flags := m (a + 6) &&& 0xf0

namespace Segment

/-- The last offset in the segment: the limit counts bytes or pages. -/
def top (s : Segment) : ℕ := if s.flags &&& 0x80 ≠ 0 then 4096 * s.limit + 4095 else s.limit

lemma top_of_pages {s : Segment} (h : s.flags &&& 0x80 ≠ 0) : s.top = 4096 * s.limit + 4095 :=
  if_pos h

/-- The segment is there, and holds code or data that does not grow down. -/
def Usable (s : Segment) : Prop := s.access &&& 0x90 = 0x90 ∧ s.access &&& 0x0c ≠ 0x04

instance (s : Segment) : Decidable s.Usable := inferInstanceAs (Decidable (_ ∧ _))

/-- The privilege level of the segment. -/
def dpl (s : Segment) : ℕ := s.access.toNat / 32 % 4

/-- The segment holds code. -/
def Code (s : Segment) : Prop := s.access &&& 0x08 ≠ 0

instance (s : Segment) : Decidable s.Code := inferInstanceAs (Decidable (_ ≠ _))

end Segment

/-- The linear address of an offset in the segment that a selector names, in the table `m` of the
given limit. -/
def translate (m : ℕ → UInt8) (tableLimit : UInt16) (sel : UInt16) (offset : UInt32) :
    Option UInt32 :=
  let s := segment m (8 * (sel.toNat / 8))
  if sel.toNat / 8 = 0 ∨ sel.toNat / 4 % 2 = 1 then none
  else if tableLimit.toNat < 8 * (sel.toNat / 8) + 7 then none
  else if s.Usable ∧ offset.toNat ≤ s.top then some (UInt32.ofNat (s.base + offset.toNat))
  else none

/-! ## Gates -/

/-- A gate: where it leads, and its attributes. -/
structure Gate where
  offset : ℕ
  selector : UInt16
  attr : UInt8
  deriving DecidableEq

/-- The gate at `a`. -/
def gate (m : ℕ → UInt8) (a : ℕ) : Gate where
  offset := join (m a) (m (a + 1)) (m (a + 6)) (m (a + 7))
  selector := Bytes.le16 m (a + 2)
  attr := m (a + 5)

/-- The gate of an interrupt vector, in the table `m` of the given limit; there is none if the entry
is behind the limit or not marked present. -/
def vector (m : ℕ → UInt8) (tableLimit : UInt16) (n : ℕ) : Option Gate :=
  if tableLimit.toNat < 8 * n + 7 then none
  else if (gate m (8 * n)).attr &&& 0x80 = 0 then none
  else some (gate m (8 * n))

/-! ## Descriptors are their bytes -/

section Congr

variable {m m' : ℕ → UInt8} {a : ℕ}

lemma segment_congr (h : ∀ k < 8, m (a + k) = m' (a + k)) : segment m a = segment m' a := by
  have h0 : m a = m' a := h 0 (by omega)
  simp only [segment, h0, h 1 (by omega), h 2 (by omega), h 3 (by omega), h 4 (by omega),
    h 5 (by omega), h 6 (by omega), h 7 (by omega)]

lemma gate_congr (h : ∀ k < 8, m (a + k) = m' (a + k)) : gate m a = gate m' a := by
  have h0 : m a = m' a := h 0 (by omega)
  have hsel : Bytes.le16 m (a + 2) = Bytes.le16 m' (a + 2) :=
    Bytes.le16_congr fun k hk => by rw [Nat.add_assoc]; exact h (2 + k) (by omega)
  simp only [gate, h0, h 1 (by omega), hsel, h 5 (by omega), h 6 (by omega), h 7 (by omega)]

end Congr

end Descriptor
