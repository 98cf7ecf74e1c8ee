import Korolev.Dev.Ide

set_option relaxedAutoImplicit false
set_option autoImplicit false

/-!
# The cluster buffer of the file systems

`fs/kfs2.c` and `fs/kssfs.c` are two file systems over one layout: a header sector at `lba`,
then clusters of 16 sectors. Both keep the last cluster read in a global buffer, with the number
of that cluster beside it, and their `read_cluster` functions are the same code over different
globals. This file is that code, and what can be said about it without knowing what a cluster
contains.

Whether a read goes to the disk is decided by the index alone. The invariant that makes this
right (`Korolev.ClusterCache.Inv`) speaks about mounted file systems only: between a failed mount
and the next one the index is stale, but `lba` is `0` and nothing is read through it.

## Main definitions

* `Korolev.ClusterCache` — the globals involved.
* `Korolev.ClusterCache.readCluster` — `kfs2_read_cluster` and `kssfs_read_cluster`.
* `Korolev.clusterByte` — a cluster as it is on the disk.
* `Korolev.ClusterCache.Inv` — the buffer of a mounted file system holds the cluster its index
  names.

## Main results

* `Korolev.ClusterCache.readCluster_cases` — everything reading a cluster can do.
* `Korolev.ClusterCache.readCluster_miss` — what the buffer holds after a miss.
* `Korolev.ClusterCache.Inv.readCluster`, `Korolev.ClusterCache.Inv.readCluster_buf` — reading
  keeps the invariant, and what the buffer holds afterwards.
-/

namespace Korolev

open Bytes

/-- The globals of a file system that `read_cluster` uses: the first sector (`0` if nothing is
mounted), the buffer, the index of the cluster in it (`0xffffffff` for none), the number of
clusters, and the drive. The buffer is the memory from `kfs2_buf` or `kssfs_buf` on; the array
is its first `16384` bytes. -/
structure ClusterCache where
  lba : LONG
  buf : ℕ → BYTE
  clusterIndex : LONG
  clusterN : LONG
  ide : Ide

/-- `KFS2_CLSTR_LBA(n)` and `KSSFS_CLSTR_LBA(n)` for a file system mounted at `lba`. -/
def clstrLba (lba n : LONG) : LONG := lba + 1 + n * 16

/-- Byte `a` of cluster `n` of the file system mounted at `lba`, on a drive with contents
`disk`. -/
def clusterByte (disk : ℕ → BYTE) (lba n : LONG) : ℕ → BYTE := sectorByte disk (clstrLba lba n)

namespace ClusterCache

/-- `kfs2_read_cluster(n)` and `kssfs_read_cluster(n)`. The bound check lets `n` equal to the
number of clusters through. -/
def readCluster (c : ClusterCache) (n : LONG) : ClusterCache :=
  if c.lba = 0 then c
  else if c.clusterN < n then c
  else if n = c.clusterIndex then c
  else
    let r := readSectors (clstrLba c.lba n) 16 0 c.ide c.buf
    { c with ide := r.1, buf := r.2, clusterIndex := n }

/-- Everything reading a cluster can do: nothing, because no file system is mounted, the cluster
is out of range or it is the cached one; or load the 16 sectors and remember which. -/
lemma readCluster_cases (c : ClusterCache) (n : LONG) :
    ((c.lba = 0 ∨ c.clusterN < n ∨ n = c.clusterIndex) ∧ c.readCluster n = c) ∨
    (c.lba ≠ 0 ∧ n ≤ c.clusterN ∧ n ≠ c.clusterIndex ∧ c.readCluster n =
      { c with
        ide := (readSectors (clstrLba c.lba n) 16 0 c.ide c.buf).1
        buf := (readSectors (clstrLba c.lba n) 16 0 c.ide c.buf).2
        clusterIndex := n }) := by
  unfold readCluster
  by_cases h1 : c.lba = 0
  · exact .inl ⟨.inl h1, if_pos h1⟩
  by_cases h2 : c.clusterN < n
  · exact .inl ⟨.inr (.inl h2), by rw [if_neg h1, if_pos h2]⟩
  by_cases h3 : n = c.clusterIndex
  · exact .inl ⟨.inr (.inr h3), by rw [if_neg h1, if_neg h2, if_pos h3]⟩
  · exact .inr ⟨h1, UInt32.not_lt.mp h2, h3, by rw [if_neg h1, if_neg h2, if_neg h3]⟩

@[simp] lemma readCluster_lba (c : ClusterCache) (n : LONG) : (c.readCluster n).lba = c.lba := by
  rcases readCluster_cases c n with ⟨-, h⟩ | ⟨-, -, -, h⟩ <;> rw [h]

@[simp] lemma readCluster_clusterN (c : ClusterCache) (n : LONG) :
    (c.readCluster n).clusterN = c.clusterN := by
  rcases readCluster_cases c n with ⟨-, h⟩ | ⟨-, -, -, h⟩ <;> rw [h]

/-- After reading a cluster in range of a mounted file system, the index names it. -/
lemma readCluster_clusterIndex {c : ClusterCache} (hlba : c.lba ≠ 0) {n : LONG}
    (hn : n ≤ c.clusterN) : (c.readCluster n).clusterIndex = n := by
  rcases readCluster_cases c n with ⟨h0 | hlt | hhit, heq⟩ | ⟨-, -, -, heq⟩
  · exact absurd h0 hlba
  · exact absurd hn (UInt32.not_le.mpr hlt)
  · rw [heq, hhit]
  · rw [heq]

/-- On a drive that never fails, reading a cluster leaves the contents of the drive alone. -/
lemma readCluster_ide {c : ClusterCache} (hide : c.ide.Faithful) (n : LONG) :
    (c.readCluster n).ide.Faithful ∧ (c.readCluster n).ide.disk = c.ide.disk := by
  obtain ⟨hf, hd, -⟩ := readSectors_spec (clstrLba c.lba n) 16 0 c.ide c.buf hide
  rcases readCluster_cases c n with ⟨-, heq⟩ | ⟨-, -, -, heq⟩
  · rw [heq]
    exact ⟨hide, rfl⟩
  · rw [heq]
    exact ⟨hf, hd⟩

/-- A miss loads the cluster from the disk to the first 8192 bytes of the buffer, and leaves the
memory behind them alone. -/
lemma readCluster_miss_buf {c : ClusterCache} (hide : c.ide.Faithful) (hlba : c.lba ≠ 0) {n : LONG}
    (hn : n ≤ c.clusterN) (hne : n ≠ c.clusterIndex) (a : ℕ) :
    (c.readCluster n).buf a =
      if a < 8192 then clusterByte c.ide.disk c.lba n a else c.buf a := by
  obtain ⟨-, -, hb⟩ := readSectors_spec (clstrLba c.lba n) 16 0 c.ide c.buf hide
  rcases readCluster_cases c n with ⟨h0 | hlt | hhit, -⟩ | ⟨-, -, -, heq⟩
  · exact absurd h0 hlba
  · exact absurd hn (UInt32.not_le.mpr hlt)
  · exact absurd hhit hne
  · rw [heq]
    dsimp only
    rw [hb a]
    exact if_congr (by omega) rfl rfl

/-- A miss loads the cluster from the disk. -/
lemma readCluster_miss {c : ClusterCache} (hide : c.ide.Faithful) (hlba : c.lba ≠ 0) {n : LONG}
    (hn : n ≤ c.clusterN) (hne : n ≠ c.clusterIndex) :
    ∀ a < 8192, (c.readCluster n).buf a = clusterByte c.ide.disk c.lba n a := by
  intro a ha
  rw [readCluster_miss_buf hide hlba hn hne, if_pos ha]

/-- Whatever is read, the memory behind the first 8192 bytes of the buffer stays. -/
lemma readCluster_behind {c : ClusterCache} (hide : c.ide.Faithful) (n : LONG) {a : ℕ}
    (ha : 8192 ≤ a) : (c.readCluster n).buf a = c.buf a := by
  rcases readCluster_cases c n with ⟨-, heq⟩ | ⟨hlba, hn, hne, -⟩
  · rw [heq]
  · rw [readCluster_miss_buf hide hlba hn hne, if_neg (by omega)]

/-! ## The invariant -/

/-- The drive works and has the contents `disk`, and if a file system is mounted and the index
names a cluster, the buffer holds that cluster. -/
structure Inv (disk : ℕ → BYTE) (c : ClusterCache) : Prop where
  faithful : c.ide.Faithful
  disk_eq : c.ide.disk = disk
  coherent : c.lba ≠ 0 → c.clusterIndex ≠ 0xffffffff →
    ∀ a < 8192, c.buf a = clusterByte disk c.lba c.clusterIndex a

namespace Inv

variable {disk : ℕ → BYTE} {c : ClusterCache}

/-- Reading a cluster keeps the invariant: a hit changes nothing, a miss loads exactly the
sectors of the index it sets. -/
lemma readCluster (h : c.Inv disk) (n : LONG) : (c.readCluster n).Inv disk := by
  obtain ⟨hf, hd⟩ := readCluster_ide h.faithful n
  refine ⟨hf, hd.trans h.disk_eq, ?_⟩
  rcases readCluster_cases c n with ⟨-, heq⟩ | ⟨hlba, hn, hne, -⟩
  · rw [heq]
    exact h.coherent
  · intro _ _ a ha
    rw [readCluster_lba, readCluster_clusterIndex hlba hn,
      readCluster_miss h.faithful hlba hn hne a ha, h.disk_eq]

/-- After reading a cluster in range, the buffer holds it, whether it was cached or not. -/
lemma readCluster_buf (h : c.Inv disk) (hlba : c.lba ≠ 0) {n : LONG} (hn : n ≤ c.clusterN)
    (hne : n ≠ 0xffffffff) :
    ∀ a < 8192, (c.readCluster n).buf a = clusterByte disk c.lba n a := by
  have hinv := (h.readCluster n).coherent
  rw [readCluster_clusterIndex hlba hn, readCluster_lba] at hinv
  exact hinv hlba hne

end Inv

end ClusterCache

end Korolev
