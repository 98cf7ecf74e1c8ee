import Korolev.Base
import Mathlib.Data.List.Basic

set_option relaxedAutoImplicit false
set_option autoImplicit false

/-!
# Volumes

What a KSSFS image is for: a fixed number of slots, each of which is free or holds one named file.
Three programs work on images, `mkfs.kssfs`, the FUSE mount and the kernel, and a fourth prints
them; none shares more than a header file with another. This file is what they have to agree on,
without clusters, buffers and offsets.

Slots are found by the first that has a name. Nothing keeps names distinct, so two slots may have
the same one; the second is then hidden by the first.

## Main definitions

* `Korolev.FileName` — a name that fits in the header of a cluster with its terminator.
* `Korolev.Slot`, `Korolev.Volume` — a slot, and a volume.
* `Korolev.Volume.lookup` — the first slot that has a name; the empty name is that of free slots.
* `Korolev.Volume.create`, `Korolev.Volume.write`, `Korolev.Volume.remove`,
  `Korolev.Volume.rename`, `Korolev.Volume.names` — the operations.

## Main results

* `Korolev.Volume.lookup_eq_some_iff` — what a lookup finds.
-/

namespace Korolev

open Bytes

/-! ## Slots -/

/-- A name of at most 255 bytes, without its terminator. -/
@[ext]
structure FileName where
  bytes : List BYTE
  length_le : bytes.length ≤ 255
  nul : 0 ∉ bytes

/-- The name of a free slot. -/
def FileName.empty : FileName := ⟨[], by decide, by decide⟩

/-- A slot of a volume. It keeps its user, its group, its size and its data when it is given a
name. -/
structure Slot where
  name : FileName
  uid : LONG
  gid : LONG
  len : ℕ
  data : ℕ → BYTE
  len_le : len ≤ 7680

namespace Slot

/-- The slot holds no file. -/
def Free (t : Slot) : Prop := t.name.bytes = []

instance (t : Slot) : Decidable t.Free := inferInstanceAs (Decidable (_ = _))

/-- A slot that was never used. -/
def blank : Slot := ⟨.empty, 0, 0, 0, fun _ => 0, by decide⟩

/-- The slot with another name. -/
def named (t : Slot) (name : FileName) : Slot := { t with name := name }

/-- The slot after `size` bytes were written at `offset`, which ends the file behind them. There is
no write that does not fit. -/
def written (t : Slot) (offset size : ℕ) (src : ℕ → BYTE) : Slot :=
  if h : offset + size ≤ 7680 then
    { t with len := offset + size, data := blit t.data offset size src, len_le := h }
  else t

/-- The contents of the file. -/
def contents (t : Slot) : List BYTE := toList t.data 0 t.len

lemma written_of_le (t : Slot) {offset size : ℕ} (h : offset + size ≤ 7680) (src : ℕ → BYTE) :
    t.written offset size src =
      { t with len := offset + size, data := blit t.data offset size src, len_le := h } :=
  dif_pos h

end Slot

/-! ## Volumes -/

/-- A volume: its slots, in order. -/
abbrev Volume := List Slot

namespace Volume

/-- The first slot with the name. -/
def lookup (v : Volume) (name : List BYTE) : Option ℕ :=
  v.findIdx? fun t => decide (t.name.bytes = name)

/-- Creating a file: the first free slot gets the name. -/
def create (v : Volume) (name : FileName) : Option (ℕ × Volume) :=
  (v.lookup []).map fun i => (i, v.modify i fun t => t.named name)

/-- Writing to the file in slot `i`. -/
def write (v : Volume) (i offset size : ℕ) (src : ℕ → BYTE) : Volume :=
  v.modify i fun t => t.written offset size src

/-- Removing a file: the first slot with the name becomes blank. -/
def remove (v : Volume) (name : List BYTE) : Option Volume :=
  (v.lookup name).map fun i => v.modify i fun _ => .blank

/-- Renaming a file: the first slot with the name gets another one. -/
def rename (v : Volume) (name : List BYTE) (new : FileName) : Option Volume :=
  (v.lookup name).map fun i => v.modify i fun t => t.named new

/-- The names of the files, in the order of their slots. -/
def names (v : Volume) : List (List BYTE) :=
  (v.filter fun t => ¬t.Free).map fun t => t.name.bytes

section Lookup

variable {v : Volume} {name : List BYTE} {i : ℕ}

/-- What a lookup finds: the first slot with the name. -/
lemma lookup_eq_some_iff : v.lookup name = some i ↔
    ∃ h : i < v.length, v[i].name.bytes = name ∧
      ∀ j (hj : j < i), v[j].name.bytes ≠ name := by
  simp only [lookup, List.findIdx?_eq_some_iff_getElem, decide_eq_true_eq, ne_eq]

lemma lookup_lt (h : v.lookup name = some i) : i < v.length := (lookup_eq_some_iff.mp h).1

end Lookup

end Volume

end Korolev
