import Korolev.Base

set_option relaxedAutoImplicit false
set_option autoImplicit false

/-!
# The sector interface of the disk driver

`dev/ide.c` has `ide_read_sector` and `ide_write_sector` as stubs that return `0`. The file
systems of the kernel are written against the interface they stand for: a drive with 32-bit
sector numbers, each transfer moving one sector of 512 bytes and returning `0`, or returning
nonzero and moving nothing. This file is that drive.

The contents of the drive are one byte region; sector `lba` is the 512 bytes from `512 * lba` on.
Which calls fail is a parameter of the drive, so that the error paths of its callers are live; a
drive that never fails is `Korolev.Ide.Faithful`.

## Main definitions

* `Korolev.Ide` — the drive: contents, and the outcome of each call.
* `Korolev.ideReadSector`, `Korolev.ideWriteSector` — one transfer.
* `Korolev.readSectors`, `Korolev.writeSectors` — the loop by which a cluster is transferred.

## Main results

* `Korolev.readSectors_fault_spec` — what the read loop does, whichever calls fail.
* `Korolev.readSectors_spec`, `Korolev.writeSectors_spec` — what the loops do on a drive that
  never fails.
-/

namespace Korolev

open Bytes

/-- A drive. -/
structure Ide where
  /-- the contents; sector `lba` starts at `512 * lba` -/
  disk : ℕ → BYTE
  /-- whether call number `c` fails -/
  fault : ℕ → Bool
  /-- the number of calls made so far -/
  calls : ℕ

namespace Ide

/-- The drive never fails. -/
def Faithful (d : Ide) : Prop := ∀ c, d.fault c = false

/-- The drive after one more call. -/
def tick (d : Ide) : Ide := { d with calls := d.calls + 1 }

@[simp] lemma tick_disk (d : Ide) : d.tick.disk = d.disk := rfl

end Ide

/-- `ide_read_sector(LBA, p, 1, 0)`: one sector to offset `p` of the region `mem`. -/
def ideReadSector (d : Ide) (lba : LONG) (mem : ℕ → BYTE) (p : ℕ) : ℤ × Ide × (ℕ → BYTE) :=
  if d.fault d.calls then (1, d.tick, mem)
  else (0, d.tick, blit mem p 512 fun k => d.disk (512 * lba.toNat + k))

/-- `ide_write_sector(LBA, p, 1, 0)`: one sector from offset `p` of the region `mem`. -/
def ideWriteSector (d : Ide) (lba : LONG) (mem : ℕ → BYTE) (p : ℕ) : ℤ × Ide :=
  if d.fault d.calls then (1, d.tick)
  else (0, { d.tick with disk := blit d.disk (512 * lba.toNat) 512 fun k => mem (p + k) })

/-- `for(int i = 0; i < 16; i++) ide_read_sector(startc + i, buf + 512 * i, 1, 0);` with `n`
iterations left and the counter at `i`. The results of the calls are not looked at. -/
def readSectors (startc : LONG) : (n i : ℕ) → Ide → (ℕ → BYTE) → Ide × (ℕ → BYTE)
  | 0, _, d, buf => (d, buf)
  | n + 1, i, d, buf =>
    let r := ideReadSector d (startc + UInt32.ofNat i) buf (512 * i)
    readSectors startc n (i + 1) r.2.1 r.2.2

/-- `for(int i = 0; i < 16; i++) ide_write_sector(startc + i, buf + i * 512, 1, 0);` with `n`
iterations left and the counter at `i`. The results of the calls are not looked at. -/
def writeSectors (startc : LONG) (buf : ℕ → BYTE) : (n i : ℕ) → Ide → Ide
  | 0, _, d => d
  | n + 1, i, d =>
    writeSectors startc buf n (i + 1) (ideWriteSector d (startc + UInt32.ofNat i) buf (i * 512)).2

/-- Byte `a` of the 16 sectors from `startc` on, sector numbers modulo `2 ^ 32`. -/
def sectorByte (disk : ℕ → BYTE) (startc : LONG) (a : ℕ) : BYTE :=
  disk (512 * (startc + UInt32.ofNat (a / 512)).toNat + a % 512)

/-- One read is one call, and moves the sector unless the call fails. -/
lemma ideReadSector_spec (d : Ide) (lba : LONG) (mem : ℕ → BYTE) (p : ℕ) :
    (ideReadSector d lba mem p).2.1 = d.tick ∧
    ∀ a, (ideReadSector d lba mem p).2.2 a =
      if (p ≤ a ∧ a < p + 512) ∧ d.fault d.calls = false then d.disk (512 * lba.toNat + (a - p))
      else mem a := by
  unfold ideReadSector
  cases hfault : d.fault d.calls with
  | true => exact ⟨rfl, fun a => (if_neg (by simp)).symm⟩
  | false =>
    refine ⟨rfl, fun a => ?_⟩
    simp only [and_true]
    rfl

/-- The read loop makes one call for each sector and leaves the drive's contents alone; it moves the
sectors `startc + i, …, startc + i + n - 1` to the buffer, sector `startc + j` to offset `512 * j`,
but for those whose read fails.

**Proof sketch.** Induction on the number of iterations left. A byte of the first sector is not
touched by the later ones, a byte of a later one is covered by the induction hypothesis. -/
lemma readSectors_fault_spec (startc : LONG) (n : ℕ) : ∀ (i : ℕ) (d : Ide) (buf : ℕ → BYTE),
    (readSectors startc n i d buf).1 = { d with calls := d.calls + n } ∧
    ∀ a, (readSectors startc n i d buf).2 a =
      if (512 * i ≤ a ∧ a < 512 * (i + n)) ∧ d.fault (d.calls + (a / 512 - i)) = false then
        sectorByte d.disk startc a
      else buf a := by
  induction n with
  | zero =>
    intro i d buf
    refine ⟨rfl, fun a => ?_⟩
    rw [if_neg (by omega)]
    rfl
  | succ n ih =>
    intro i d buf
    obtain ⟨htick, hfirst⟩ := ideReadSector_spec d (startc + UInt32.ofNat i) buf (512 * i)
    obtain ⟨hd, hb⟩ := ih (i + 1) d.tick
      (ideReadSector d (startc + UInt32.ofNat i) buf (512 * i)).2.2
    rw [readSectors, htick]
    refine ⟨hd.trans (by simp [Ide.tick, Nat.add_assoc, Nat.add_comm 1 n]), fun a => ?_⟩
    rw [hb]
    by_cases hin : 512 * i ≤ a ∧ a < 512 * i + 512
    · have hdiv : a / 512 = i := by omega
      have hmod : a - 512 * i = a % 512 := by omega
      rw [if_neg (by omega), hfirst, hdiv, Nat.sub_self, Nat.add_zero, hmod, sectorByte, hdiv]
      exact if_congr (and_congr_left fun _ => by omega) rfl rfl
    · rw [hfirst a, if_neg fun h : (512 * i ≤ a ∧ a < 512 * i + 512) ∧ _ => hin h.1]
      refine if_congr ?_ rfl rfl
      by_cases hrest : 512 * (i + 1) ≤ a
      · have hcall : d.tick.calls + (a / 512 - (i + 1)) = d.calls + (a / 512 - i) := by
          simp only [Ide.tick]
          omega
        rw [hcall]
        exact and_congr_left fun _ => by omega
      · exact iff_of_false (by omega) (by omega)

section Faithful

variable {d : Ide}

lemma ideReadSector_of_faithful (h : d.Faithful) (lba : LONG) (mem : ℕ → BYTE) (p : ℕ) :
    ideReadSector d lba mem p =
      (0, d.tick, blit mem p 512 fun k => d.disk (512 * lba.toNat + k)) := by
  simp [ideReadSector, h d.calls]

lemma ideWriteSector_of_faithful (h : d.Faithful) (lba : LONG) (mem : ℕ → BYTE) (p : ℕ) :
    ideWriteSector d lba mem p =
      (0, { d.tick with disk := blit d.disk (512 * lba.toNat) 512 fun k => mem (p + k) }) := by
  simp [ideWriteSector, h d.calls]

/-- On a drive that never fails, the read loop moves all sectors. -/
lemma readSectors_spec (startc : LONG) (n i : ℕ) (d : Ide) (buf : ℕ → BYTE) (h : d.Faithful) :
    (readSectors startc n i d buf).1.Faithful ∧
    (readSectors startc n i d buf).1.disk = d.disk ∧
    ∀ a, (readSectors startc n i d buf).2 a =
      if 512 * i ≤ a ∧ a < 512 * (i + n) then sectorByte d.disk startc a else buf a := by
  obtain ⟨hd, hb⟩ := readSectors_fault_spec startc n i d buf
  rw [hd]
  refine ⟨h, rfl, fun a => ?_⟩
  rw [hb]
  simp only [h _, and_true]

/-- Sector `q` is the one written in iteration `i` iff its distance from `startc` is `i`. -/
lemma sub_toNat_eq_iff {q startc : LONG} {i : ℕ} (hi : i < 2 ^ 32) :
    (q - startc).toNat = i ↔ q = startc + UInt32.ofNat i := by
  constructor
  · rintro rfl
    rw [UInt32.ofNat_toNat]
    grind
  · rintro rfl
    have hcancel : startc + UInt32.ofNat i - startc = UInt32.ofNat i := by grind
    rw [hcancel, toNat_ofNat_of_lt hi]

/-- The write loop moves the buffer to the sectors `startc + i, …, startc + i + n - 1`, offset
`512 * j` to sector `startc + j`, and leaves every other sector alone.

**Proof sketch.** Induction on the number of iterations left. Distances from `startc` tell the
sectors of the loop apart, since fewer than `2 ^ 32` of them are written. -/
lemma writeSectors_spec (startc : LONG) (buf : ℕ → BYTE) (n : ℕ) : ∀ (i : ℕ) (d : Ide),
    d.Faithful → i + n ≤ 2 ^ 32 →
      (writeSectors startc buf n i d).Faithful ∧
      ∀ (q : LONG) (k : ℕ), k < 512 →
        (writeSectors startc buf n i d).disk (512 * q.toNat + k) =
          if i ≤ (q - startc).toNat ∧ (q - startc).toNat < i + n then
            buf (512 * (q - startc).toNat + k)
          else d.disk (512 * q.toNat + k) := by
  induction n with
  | zero =>
    intro i d h _
    refine ⟨h, fun q k _ => ?_⟩
    rw [if_neg (by omega)]
    rfl
  | succ n ih =>
    intro i d h hin
    simp only [writeSectors, ideWriteSector_of_faithful h]
    obtain ⟨hf, hd⟩ := ih (i + 1) { d.tick with
      disk := blit d.disk (512 * (startc + UInt32.ofNat i).toNat) 512 fun k => buf (i * 512 + k) }
      h (by omega)
    refine ⟨hf, fun q k hk => ?_⟩
    rw [hd q k hk]
    dsimp only
    by_cases hq : q = startc + UInt32.ofNat i
    · have hdist : (q - startc).toNat = i := (sub_toNat_eq_iff (by omega)).mpr hq
      rw [hdist, if_neg (by omega), if_pos (by omega), hq, blit_add hk, Nat.mul_comm]
    · have hdist : (q - startc).toNat ≠ i := fun h' =>
        hq ((sub_toNat_eq_iff (by omega)).mp h')
      have hne : q.toNat ≠ (startc + UInt32.ofNat i).toNat := fun h' =>
        hq (UInt32.toNat_inj.mp h')
      rw [blit_of_not_mem (by omega)]
      by_cases hin : i + 1 ≤ (q - startc).toNat ∧ (q - startc).toNat < i + 1 + n
      · rw [if_pos hin, if_pos (by omega)]
      · rw [if_neg hin, if_neg (by omega)]

end Faithful

end Korolev
