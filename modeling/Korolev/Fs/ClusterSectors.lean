import Korolev.Fs.Kfs2Cache
import Korolev.Fs.KssfsCache

set_option relaxedAutoImplicit false
set_option autoImplicit false

/-!
# The sectors of a cluster

A cluster number becomes the numbers of 16 sectors. The functions that transfer them refuse a
number that is larger than the number of clusters, but not one that equals it: the cluster behind
the last one is read, and in KSSFS written, with the sectors behind the file system.

## Main definitions

* `Korolev.ClusterCache.sectorsRead`, `Korolev.Kssfs.sectorsWritten` — the sectors a call transfers.
* `Korolev.InsideFs` — the sectors of a call are those of the file system.

## Main results

* `Korolev.ClusterCache.readCluster_transfers`, `Korolev.kssfsWriteCluster_transfers` — the calls
  are these transfers.
* `Korolev.cluster_sectors_inside_iff` — when they stay inside of the file system.
-/

namespace Korolev

/-! ## Transfers -/

/-- The sectors of cluster `n`, in the order of the loops. -/
def clusterSectors (lba n : LONG) : List LONG :=
  (List.range 16).map fun i => clstrLba lba n + UInt32.ofNat i

/-- The sectors `kfs2_read_cluster(n)` and `kssfs_read_cluster(n)` pass to `ide_read_sector`. -/
def ClusterCache.sectorsRead (c : ClusterCache) (n : LONG) : List LONG :=
  if c.lba = 0 then []
  else if c.clusterN < n then []
  else if n = c.clusterIndex then []
  else clusterSectors c.lba n

/-- The sectors `kssfs_write_cluster(n, buf)` passes to `ide_write_sector`. -/
def Kssfs.sectorsWritten (s : Kssfs) (n : LONG) : List LONG :=
  if s.lba = 0 then []
  else if s.clusterN < n then []
  else clusterSectors s.lba n

/-- One transfer to the buffer; the second component of `x` is the counter of the loop. -/
def readTransfer (st : Ide × (ℕ → BYTE)) (x : LONG × ℕ) : Ide × (ℕ → BYTE) :=
  (ideReadSector st.1 x.1 st.2 (512 * x.2)).2

/-- One transfer from `buf`. -/
def writeTransfer (buf : ℕ → BYTE) (d : Ide) (x : LONG × ℕ) : Ide :=
  (ideWriteSector d x.1 buf (x.2 * 512)).2

lemma readSectors_eq_foldl (startc : LONG) (n : ℕ) : ∀ (i : ℕ) (st : Ide × (ℕ → BYTE)),
    readSectors startc n i st.1 st.2 =
      (((List.range' i n).map fun j => (startc + UInt32.ofNat j, j)).foldl readTransfer st) := by
  induction n with
  | zero => exact fun i st => rfl
  | succ n ih =>
    intro i st
    rw [readSectors, List.range'_succ, List.map_cons, List.foldl_cons, ← ih]
    rfl

lemma writeSectors_eq_foldl (startc : LONG) (buf : ℕ → BYTE) (n : ℕ) : ∀ (i : ℕ) (d : Ide),
    writeSectors startc buf n i d =
      (((List.range' i n).map fun j => (startc + UInt32.ofNat j, j)).foldl (writeTransfer buf)
        d) := by
  induction n with
  | zero => exact fun i d => rfl
  | succ n ih =>
    intro i d
    rw [writeSectors, List.range'_succ, List.map_cons, List.foldl_cons, ← ih]
    rfl

/-- The sectors of a cluster, each with the counter of the loop. -/
lemma zipIdx_clusterSectors (lba n : LONG) :
    (clusterSectors lba n).zipIdx =
      (List.range' 0 16).map fun j => (clstrLba lba n + UInt32.ofNat j, j) := rfl

/-- Reading a cluster is the transfers of `sectorsRead`, in that order. -/
lemma ClusterCache.readCluster_transfers (c : ClusterCache) (n : LONG) :
    ((c.readCluster n).ide, (c.readCluster n).buf) =
      (c.sectorsRead n).zipIdx.foldl readTransfer (c.ide, c.buf) := by
  unfold ClusterCache.readCluster ClusterCache.sectorsRead
  split_ifs
  · rfl
  · rfl
  · rfl
  · rw [zipIdx_clusterSectors]
    exact readSectors_eq_foldl (clstrLba c.lba n) 16 0 (c.ide, c.buf)

/-- Writing a cluster is the transfers of `sectorsWritten`, in that order. -/
lemma kssfsWriteCluster_transfers (s : Kssfs) (n : LONG) (buf : ℕ → BYTE) :
    (kssfsWriteCluster s n buf).ide =
      (s.sectorsWritten n).zipIdx.foldl (writeTransfer buf) s.ide := by
  unfold kssfsWriteCluster Kssfs.sectorsWritten
  split_ifs
  · rfl
  · rfl
  · rw [zipIdx_clusterSectors]
    exact writeSectors_eq_foldl (clstrLba s.lba n) buf 16 0 s.ide

/-! ## Staying inside -/

/-- The sectors transferred for cluster `n` are sectors of the file system's clusters, and none are
if `n` is no cluster. -/
structure InsideFs (lba clusterN n : LONG) (sectors : List LONG) : Prop where
  bounds : ∀ q ∈ sectors,
    lba.toNat + 1 ≤ q.toNat ∧ q.toNat < lba.toNat + 1 + 16 * clusterN.toNat
  none : clusterN ≤ n → sectors = []

section Inside

variable {lba clusterN n : LONG}

lemma insideFs_nil : InsideFs lba clusterN n [] :=
  ⟨fun _ hq => absurd hq List.not_mem_nil, fun _ => rfl⟩

/-- The sectors of a cluster of the file system. -/
lemma mem_clusterSectors (hfits : lba.toNat + 1 + 16 * clusterN.toNat ≤ 2 ^ 32) (hn : n < clusterN)
    {q : LONG} (hq : q ∈ clusterSectors lba n) :
    lba.toNat + 1 ≤ q.toNat ∧ q.toNat < lba.toNat + 1 + 16 * clusterN.toNat := by
  have hn := UInt32.lt_iff_toNat_lt.mp hn
  obtain ⟨i, hi, rfl⟩ := List.mem_map.mp hq
  rw [List.mem_range] at hi
  have hval : (clstrLba lba n + UInt32.ofNat i).toNat = lba.toNat + 1 + 16 * n.toNat + i := by
    rw [clstrLba, UInt32.toNat_add, UInt32.toNat_add, UInt32.toNat_add, toNat_mul_sixteen,
      UInt32.toNat_one, toNat_ofNat_of_lt (by omega)]
    omega
  omega

/-- All sectors of cluster `n` are transferred: they are inside of the file system iff `n` is one of
its clusters. -/
lemma insideFs_clusterSectors (hfits : lba.toNat + 1 + 16 * clusterN.toNat ≤ 2 ^ 32) :
    InsideFs lba clusterN n (clusterSectors lba n) ↔ n < clusterN := by
  constructor
  · intro h
    by_contra hge
    have hnil := h.none (UInt32.not_lt.mp hge)
    simp [clusterSectors] at hnil
  · intro hn
    refine ⟨fun q hq => mem_clusterSectors hfits hn hq, fun hge => ?_⟩
    exact absurd hn (UInt32.not_lt.mpr hge)

/-- A number that passes the check is a cluster unless it is the number of clusters. -/
lemma lt_iff_ne_of_not_gt (h : ¬clusterN < n) : n < clusterN ↔ n ≠ clusterN := by
  constructor
  · rintro hlt rfl
    exact UInt32.lt_irrefl _ hlt
  · intro hne
    exact UInt32.lt_of_le_of_ne (UInt32.not_lt.mp h) hne

/-- When reading a cluster stays inside. -/
lemma ClusterCache.insideFs_sectorsRead (c : ClusterCache)
    (hfits : c.lba.toNat + 1 + 16 * c.clusterN.toNat ≤ 2 ^ 32) (n : LONG) :
    InsideFs c.lba c.clusterN n (c.sectorsRead n) ↔
      c.lba = 0 ∨ n ≠ c.clusterN ∨ n = c.clusterIndex := by
  unfold ClusterCache.sectorsRead
  split_ifs with h0 hgt hhit
  · exact iff_of_true insideFs_nil (.inl h0)
  · exact iff_of_true insideFs_nil (.inr (.inl fun h => UInt32.lt_irrefl _ (h ▸ hgt)))
  · exact iff_of_true insideFs_nil (.inr (.inr hhit))
  · rw [insideFs_clusterSectors hfits, lt_iff_ne_of_not_gt hgt]
    simp [h0, hhit]

/-- When writing a cluster stays inside. -/
lemma Kssfs.insideFs_sectorsWritten (s : Kssfs)
    (hfits : s.lba.toNat + 1 + 16 * s.clusterN.toNat ≤ 2 ^ 32) (n : LONG) :
    InsideFs s.lba s.clusterN n (s.sectorsWritten n) ↔ s.lba = 0 ∨ n ≠ s.clusterN := by
  unfold Kssfs.sectorsWritten
  split_ifs with h0 hgt
  · exact iff_of_true insideFs_nil (.inl h0)
  · exact iff_of_true insideFs_nil (.inr fun h => UInt32.lt_irrefl _ (h ▸ hgt))
  · rw [insideFs_clusterSectors hfits, lt_iff_ne_of_not_gt hgt]
    simp [h0]

end Inside

/-- **When cluster accesses stay inside of the file system.** For file systems that fit on a drive
of `2 ^ 32` sectors and every cluster number: `kssfs_read_cluster`, `kssfs_write_cluster` and
`kfs2_read_cluster` are the transfers of the sectors listed; these are sectors of the file system's
clusters, and none if the number is that of no cluster, iff the number is not the number of
clusters, or nothing is mounted, or for a read, that cluster is the cached one. -/
theorem cluster_sectors_inside_iff (s : Kssfs) (k : Kfs2)
    (hs : s.lba.toNat + 1 + 16 * s.clusterN.toNat ≤ 2 ^ 32)
    (hk : k.lba.toNat + 1 + 16 * k.clusterN.toNat ≤ 2 ^ 32) (n : LONG) (buf : ℕ → BYTE) :
    (((kssfsReadCluster s n).ide, (kssfsReadCluster s n).buf) =
        (s.sectorsRead n).zipIdx.foldl readTransfer (s.ide, s.buf) ∧
      (InsideFs s.lba s.clusterN n (s.sectorsRead n) ↔
        s.lba = 0 ∨ n ≠ s.clusterN ∨ n = s.clusterIndex)) ∧
    ((kssfsWriteCluster s n buf).ide =
        (s.sectorsWritten n).zipIdx.foldl (writeTransfer buf) s.ide ∧
      (InsideFs s.lba s.clusterN n (s.sectorsWritten n) ↔ s.lba = 0 ∨ n ≠ s.clusterN)) ∧
    (((kfs2ReadCluster k n).ide, (kfs2ReadCluster k n).buf) =
        (k.sectorsRead n).zipIdx.foldl readTransfer (k.ide, k.buf) ∧
      (InsideFs k.lba k.clusterN n (k.sectorsRead n) ↔
        k.lba = 0 ∨ n ≠ k.clusterN ∨ n = k.clusterIndex)) :=
  ⟨⟨s.toClusterCache.readCluster_transfers n, s.toClusterCache.insideFs_sectorsRead hs n⟩,
    ⟨kssfsWriteCluster_transfers s n buf, s.insideFs_sectorsWritten hs n⟩,
    ⟨k.toClusterCache.readCluster_transfers n, k.toClusterCache.insideFs_sectorsRead hk n⟩⟩

/-- Cluster `1` of file systems of two clusters. -/
theorem cluster_sectors_inside_iff_last :
    let s := (kssfsInit (Kssfs.boot kssfsSampleIde) 1).2
    let k := (kfs2Init (Kfs2.boot kfs2SampleIde) 1).2
    InsideFs s.lba s.clusterN 1 (s.sectorsRead 1) ∧
    InsideFs s.lba s.clusterN 1 (s.sectorsWritten 1) ∧
    InsideFs k.lba k.clusterN 1 (k.sectorsRead 1) := by
  intro s k
  obtain ⟨⟨-, hread⟩, ⟨-, hwrite⟩, ⟨-, hread'⟩⟩ := cluster_sectors_inside_iff s k
    (by decide +kernel) (by decide +kernel) 1 (fun _ => 0)
  exact ⟨hread.mpr (.inr (.inl (by decide +kernel))), hwrite.mpr (.inr (by decide +kernel)),
    hread'.mpr (.inr (.inl (by decide +kernel)))⟩

/-- The number of clusters itself, for the same file systems: the first sector behind the file
system is read and written. -/
theorem cluster_sectors_behind_fs :
    let s := (kssfsInit (Kssfs.boot kssfsSampleIde) 1).2
    let k := (kfs2Init (Kfs2.boot kfs2SampleIde) 1).2
    s.lba = 1 ∧ s.clusterN = 2 ∧ k.lba = 1 ∧ k.clusterN = 2 ∧
    34 ∈ s.sectorsRead 2 ∧ 34 ∈ s.sectorsWritten 2 ∧ 34 ∈ k.sectorsRead 2 ∧
    ¬InsideFs s.lba s.clusterN 2 (s.sectorsRead 2) ∧
    ¬InsideFs s.lba s.clusterN 2 (s.sectorsWritten 2) ∧
    ¬InsideFs k.lba k.clusterN 2 (k.sectorsRead 2) := by
  intro s k
  have hread : s.sectorsRead 2 = clusterSectors 1 2 := by decide +kernel
  have hwrite : s.sectorsWritten 2 = clusterSectors 1 2 := by decide +kernel
  have hread' : k.sectorsRead 2 = clusterSectors 1 2 := by decide +kernel
  have hmem : 34 ∈ clusterSectors 1 2 := by decide
  have hout : ¬InsideFs 1 2 2 (clusterSectors 1 2) := fun h =>
    absurd (h.bounds 34 hmem).2 (by decide)
  have hs : s.lba = 1 ∧ s.clusterN = 2 := by decide +kernel
  have hk : k.lba = 1 ∧ k.clusterN = 2 := by decide +kernel
  rw [hread, hwrite, hread', hs.1, hs.2, hk.1, hk.2]
  exact ⟨rfl, rfl, rfl, rfl, hmem, hmem, hmem, hout, hout, hout⟩

end Korolev
