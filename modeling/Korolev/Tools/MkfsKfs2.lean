import Korolev.Fs.Kfs2

set_option relaxedAutoImplicit false
set_option autoImplicit false

/-!
# mkfs.kfs2

`tools/mkfs.kfs2.c` writes a KFS2 image for a target of a given size: the file system header, and
the clusters. The kernel (`fs/kfs2.c`) reads clusters of 16 sectors behind the header sector.

The tool sizes its clusters by the C structure of the cluster header, whose data area is an array
of length `0`: it writes 280 bytes for each of them, all from one structure on the stack, so that
from the second cluster on it writes what is behind the structure. It also subtracts the header
from the size in 32 bits, so that a target without room for a header gets the largest number of
clusters. The image is right only for targets that have room for the header and for no cluster.

## Main definitions

* `Korolev.prepare`, `Korolev.fill`, `Korolev.mkfsKfs2` — the image, a list of bytes.
* `Korolev.Kfs2Addressable` — an image the kernel can address.

## Main results

* `Korolev.mkfs_kfs2_addressable_iff` — for which targets the image is one.
-/

namespace Korolev

open Bytes

/-- The size of a cluster, in the header file. -/
def KFS2_CLSTR_SZ : LONG := 8192

/-- `KFS2_VERSION` -/
def KFS2_VERSION : LONG := 1

/-- The type of a cluster that is not in use. -/
def KFS2_TYPE_FREE : LONG := 0

/-- `sizeof(kfs2_clstr)`: the header of a cluster, without its data. -/
abbrev sizeofKfs2Clstr : ℕ := 280

/-- `h`, as it is written: the signature, the number of clusters, the version, and 500 bytes of
`0`. -/
def kfs2HeaderBytes (clusterN : LONG) : ℕ → BYTE :=
  blit (blit (blit (fun _ => 0) 0 4 (bytes32 KFS2_SIGNATURE)) 4 4 (bytes32 clusterN)) 8 4
    (bytes32 KFS2_VERSION)

/-- `prepare(f, size)`: the file written so far, and the number of clusters. -/
def prepare (f : List BYTE) (size : LONG) : List BYTE × LONG :=
  let clusterN := (size - 512) / KFS2_CLSTR_SZ
  (f ++ toList (kfs2HeaderBytes clusterN) 0 512, clusterN)

/-- `fill(f, cluster_n)`; `stack` is the memory from the local variable `c` on. -/
def fill (f : List BYTE) (clusterN : LONG) (stack : ℕ → BYTE) : List BYTE :=
  f ++ toList (blit stack 0 sizeofKfs2Clstr fun _ => 0) 0 (sizeofKfs2Clstr * clusterN.toNat)

/-- The image written for a target of `size` bytes. -/
def mkfsKfs2 (stack : ℕ → BYTE) (size : LONG) : List BYTE :=
  let r := prepare [] size
  fill r.1 r.2 stack

/-- The number of clusters an image announces. -/
def kfs2ClusterN (image : List BYTE) : ℕ := (le32 (ofList image) 4).toNat

/-- The kernel can address the image: it has the announced clusters, of 8192 bytes each, behind
the header sector, all of them free; it fits the target, and has no clusters if not even the
header does. -/
structure Kfs2Addressable (image : List BYTE) (size : LONG) : Prop where
  length : image.length = 512 + 8192 * kfs2ClusterN image
  fits : 512 ≤ size → image.length ≤ size.toNat
  empty : size < 512 → kfs2ClusterN image = 0
  clusters : ∀ i < kfs2ClusterN image, 512 + 8192 * (i + 1) ≤ image.length ∧
    kfs2Type (fun a => ofList image (512 + 8192 * i + a)) = KFS2_TYPE_FREE

lemma length_mkfsKfs2 (stack : ℕ → BYTE) (size : LONG) :
    (mkfsKfs2 stack size).length = 512 + 280 * ((size - 512) / KFS2_CLSTR_SZ).toNat := by
  simp [mkfsKfs2, prepare, fill]

/-- The number announced is the one computed. -/
lemma kfs2ClusterN_mkfsKfs2 (stack : ℕ → BYTE) (size : LONG) :
    kfs2ClusterN (mkfsKfs2 stack size) = ((size - 512) / KFS2_CLSTR_SZ).toNat := by
  have hword : le32 (ofList (mkfsKfs2 stack size)) 4 =
      le32 (kfs2HeaderBytes ((size - 512) / KFS2_CLSTR_SZ)) 4 := by
    refine le32_congr fun k hk => ?_
    simp only [mkfsKfs2, prepare, fill, List.nil_append]
    rw [ofList, List.getD_append _ _ _ _ (by simp; omega), getD_toList (by omega), Nat.zero_add]
  rw [kfs2ClusterN, hword, kfs2HeaderBytes, le32_blit_of_disjoint (by omega), le32_blit_bytes32]

/-- There is no cluster iff the target has room for the header and less than a cluster. -/
lemma clusterN_eq_zero_iff (size : LONG) :
    ((size - 512) / KFS2_CLSTR_SZ).toNat = 0 ↔ 512 ≤ size ∧ size < 8704 := by
  have hsz : KFS2_CLSTR_SZ.toNat = 8192 := rfl
  have hhdr : (512 : LONG).toNat = 512 := rfl
  have hbound : (8704 : LONG).toNat = 8704 := rfl
  have hsize := size.toNat_lt
  rw [UInt32.toNat_div, UInt32.toNat_sub, UInt32.le_iff_toNat_le, UInt32.lt_iff_toNat_lt, hsz,
    hhdr, hbound]
  omega

/-- **Images of mkfs.kfs2.** The image for a target of any size is one the kernel can address iff
the target has room for the header and less than a cluster.

**Proof sketch.** The image has 280 bytes for each of the announced clusters where the kernel
needs 8192, so there must be none. -/
theorem mkfs_kfs2_addressable_iff (stack : ℕ → BYTE) (size : LONG) :
    Kfs2Addressable (mkfsKfs2 stack size) size ↔ 512 ≤ size ∧ size < 8704 := by
  have hlen := length_mkfsKfs2 stack size
  have hcount := kfs2ClusterN_mkfsKfs2 stack size
  constructor
  · intro h
    have hlength := h.length
    rw [hlen, hcount] at hlength
    exact (clusterN_eq_zero_iff size).mp (by omega)
  · intro h
    have hzero := (clusterN_eq_zero_iff size).mpr h
    refine ⟨?_, fun hle => ?_, fun hlt => ?_, fun i hi => ?_⟩
    · rw [hlen, hcount, hzero]
    · rw [hlen, hzero]
      exact UInt32.le_iff_toNat_le.mp hle
    · exact absurd h.1 (UInt32.not_le.mpr hlt)
    · rw [hcount, hzero] at hi
      omega

/-- A target with room for one cluster gets 792 bytes, not 8704. -/
theorem mkfs_kfs2_one_cluster : ¬Kfs2Addressable (mkfsKfs2 (fun _ => 0) 8704) 8704 := by
  intro h
  have hlength := h.length
  rw [length_mkfsKfs2, kfs2ClusterN_mkfsKfs2] at hlength
  exact absurd hlength (by decide)

end Korolev
