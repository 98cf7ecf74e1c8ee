import Korolev.Fs.ClusterCache
import Korolev.Libc.String

set_option relaxedAutoImplicit false
set_option autoImplicit false

/-!
# The kernel side of the Korolev Semi-Static File System

`fs/kssfs.c` is the older of the two file systems: every file is one cluster, a header of 512
bytes followed by at most 7680 bytes of data. Files are looked up by name and copied out whole.
Unlike KFS2 it can also write a cluster, which goes straight to the disk and leaves the cluster
buffer as it is.

The name cache of the source is cleared on mounting and not used otherwise; it is left out.

## Main definitions

* `Korolev.Kssfs` — the globals of the file system, the drive and the console messages.
* `Korolev.kssfsInit`, `Korolev.kssfsReadCluster`, `Korolev.kssfsWriteCluster`,
  `Korolev.kssfsReadFile`, `Korolev.kssfsAvail` — the functions of `fs/kssfs.c`.

## Main results

* `Korolev.kssfsInit_mounted` — the globals after a successful mount.
* `Korolev.clusterByte_writeCluster` — what writing a cluster does to the clusters on the disk.
-/

namespace Korolev

open Bytes

/-- The first word of a KSSFS header. -/
def KSSFS_SIGNATURE : LONG := 0x37019626

/-- The type of a cluster that holds no file. -/
def KSSFS_CLSTR_FREE : LONG := 0

/-- The type of a cluster that holds an executable. -/
def KSSFS_CLSTR_COM : LONG := 1

/-- The type of a cluster that holds a data file. -/
def KSSFS_CLSTR_DATA : LONG := 2

/-- The globals of `fs/kssfs.c`, with the drive they are read from and the messages printed. -/
structure Kssfs extends ClusterCache where
  log : List String

/-- The globals at boot. -/
def Kssfs.boot (ide : Ide) : Kssfs where
  lba := 0
  buf := fun _ => 0
  clusterIndex := 0
  clusterN := 0
  ide := ide
  log := []

/-- `puts`, as far as the file system is concerned. -/
def Kssfs.puts (s : Kssfs) (msg : String) : Kssfs := { s with log := s.log ++ [msg] }

/-! ## Cluster headers

The fields of the packed structure `kssfs_clstr_hdr` at the start of a region. -/

/-- `kssfs_clstr->type` -/
def kssfsType (m : ℕ → BYTE) : LONG := le32 m 0

/-- `kssfs_clstr->len` -/
def kssfsLen (m : ℕ → BYTE) : WORD := le16 m 4

/-- `kssfs_clstr->filename` -/
def kssfsFilename (m : ℕ → BYTE) : ℕ → BYTE := fun k => m (6 + k)

/-! ## The functions -/

/-- `kssfs_init(lba)` -/
def kssfsInit (s : Kssfs) (lba : LONG) : ℤ × Kssfs :=
  if s.lba ≠ 0 then (0, s)
  else
    let s := { s with lba := lba }.puts "[kssfs] init: reading fs header\n"
    let r := ideReadSector s.ide s.lba s.buf 0
    let s := { s with ide := r.2.1, buf := r.2.2 }
    if r.1 ≠ 0 then
      let s := s.puts "[kssfs] init: read error while reading kssfs_header\n"
      (0, { s with lba := 0 })
    else if le32 s.buf 0 ≠ KSSFS_SIGNATURE then
      let s := s.puts "[kssfs] init: signature is incorrect\n"
      (0, { s with lba := 0 })
    else
      let s := { s with clusterN := le32 s.buf 4 }.puts "[kssfs] init: header is correct\n"
      let s := { s with buf := kmemset s.buf 0 0 8192, clusterIndex := 0xffffffff }
      (1, s.puts "[kssfs] init: OK\n")

/-- `kssfs_read_cluster(n)` -/
def kssfsReadCluster (s : Kssfs) (n : LONG) : Kssfs :=
  { s with toClusterCache := s.toClusterCache.readCluster n }

/-- `kssfs_write_cluster(n, buf)` for a buffer of the caller. The cluster buffer and its index
are not touched. -/
def kssfsWriteCluster (s : Kssfs) (n : LONG) (buf : ℕ → BYTE) : Kssfs :=
  if s.lba = 0 then s
  else if s.clusterN < n then s
  else { s with ide := writeSectors (clstrLba s.lba n) buf 16 0 s.ide }

/-- The loop of `kssfs_read_file` with `n` clusters left, from cluster `i` on. -/
def kssfsReadScan (dest filename : ℕ → BYTE) :
    (n : ℕ) → (i : LONG) → Kssfs → ℤ × (ℕ → BYTE) × Kssfs
  | 0, _, s => (0, dest, s)
  | n + 1, i, s =>
    let s := kssfsReadCluster s i
    if strncmp (kssfsFilename s.buf) filename 256 = 0 then
      (1, memcpy dest 0 s.buf 512 (kssfsLen s.buf).toNat, s)
    else kssfsReadScan dest filename n (i + 1) s

/-- `kssfs_read_file(dest, filename)`: the result, the memory from `dest` on, and the globals. -/
def kssfsReadFile (s : Kssfs) (dest filename : ℕ → BYTE) : ℤ × (ℕ → BYTE) × Kssfs :=
  if s.lba = 0 then (0, dest, s)
  else kssfsReadScan dest filename s.clusterN.toNat 0 s

/-- `kssfs_avail()` -/
def kssfsAvail (s : Kssfs) : LONG := s.lba

@[simp] lemma kssfsReadCluster_lba (s : Kssfs) (n : LONG) :
    (kssfsReadCluster s n).lba = s.lba := s.toClusterCache.readCluster_lba n

@[simp] lemma kssfsReadCluster_clusterN (s : Kssfs) (n : LONG) :
    (kssfsReadCluster s n).clusterN = s.clusterN := s.toClusterCache.readCluster_clusterN n

/-! ## Mounting -/

/-- A drive whose sector `lba` is a KSSFS header can be mounted there, and nothing else can. After
the mount nothing is cached, and the number of clusters is the header's. -/
lemma kssfsInit_mounted {s₀ : Kssfs} (hide : s₀.ide.Faithful) (hs₀ : s₀.lba = 0) (lba : LONG) :
    ((kssfsInit s₀ lba).1 = 1 ↔ le32 s₀.ide.disk (512 * lba.toNat) = KSSFS_SIGNATURE) ∧
    ((kssfsInit s₀ lba).1 = 1 →
      (kssfsInit s₀ lba).2.lba = lba ∧ (kssfsInit s₀ lba).2.clusterIndex = 0xffffffff ∧
      (kssfsInit s₀ lba).2.clusterN = le32 s₀.ide.disk (512 * lba.toNat + 4) ∧
      (kssfsInit s₀ lba).2.ide = s₀.ide.tick) := by
  have hload : ∀ o ≤ 508, le32 (blit s₀.buf 0 512 fun k => s₀.ide.disk (512 * lba.toNat + k)) o =
      le32 s₀.ide.disk (512 * lba.toNat + o) := by
    refine fun o ho => le32_congr fun k hk => ?_
    rw [blit_of_mem (by omega) (by omega)]
    congr 1
    omega
  rw [kssfsInit, if_neg (not_not.mpr hs₀)]
  simp only [Kssfs.puts, ideReadSector_of_faithful hide]
  rw [if_neg (by decide), hload 0 (by omega), hload 4 (by omega), Nat.add_zero]
  split_ifs with hsig
  · exact ⟨⟨fun h => by simp at h, fun h => absurd h hsig⟩, fun h => by simp at h⟩
  · exact ⟨⟨fun _ => not_not.mp hsig, fun _ => rfl⟩, fun _ => ⟨rfl, rfl, rfl, rfl⟩⟩

/-- A file system is mounted by `kssfs_init` only if none was before. -/
lemma lba_eq_zero_of_kssfsInit {s₀ : Kssfs} {lba : LONG} (h : (kssfsInit s₀ lba).1 = 1) :
    s₀.lba = 0 := by
  by_contra hne
  simp [kssfsInit, hne] at h

/-! ## Writing a cluster -/

/-- Clusters `m` and `n` have the same sectors, sector numbers being 32-bit. -/
def SameSectors (m n : LONG) : Prop := m * 16 = n * 16

instance (m n : LONG) : Decidable (SameSectors m n) := inferInstanceAs (Decidable (_ = _))

/-- The first sector of a cluster, relative to cluster `0`. -/
lemma toNat_mul_sixteen (n : LONG) : (n * 16).toNat = 16 * (n.toNat % 2 ^ 28) := by
  simp only [UInt32.toNat_mul, UInt32.toNat_ofNat]
  omega

/-- Distinct clusters below `2 ^ 28` have distinct sectors. -/
lemma SameSectors.eq {m n : LONG} (h : SameSectors m n) (hm : m.toNat < 2 ^ 28)
    (hn : n.toNat < 2 ^ 28) : m = n := by
  have h16 := congrArg UInt32.toNat h
  rw [toNat_mul_sixteen, toNat_mul_sixteen] at h16
  rw [← UInt32.toNat_inj]
  omega

/-- Sector `j` of cluster `m` is at distance `j` from the start of cluster `n` if the clusters
have the same sectors, and at least 16 sectors away otherwise. -/
lemma clstrLba_dist (lba m n : LONG) {j : ℕ} (hj : j < 16) :
    (SameSectors m n → (clstrLba lba m + UInt32.ofNat j - clstrLba lba n).toNat = j) ∧
    (¬SameSectors m n → 16 ≤ (clstrLba lba m + UInt32.ofNat j - clstrLba lba n).toNat) := by
  have hcancel : clstrLba lba m + UInt32.ofNat j - clstrLba lba n =
      m * 16 + UInt32.ofNat j - n * 16 := by
    unfold clstrLba
    grind
  have hm' : (m * 16 + UInt32.ofNat j).toNat = 16 * (m.toNat % 2 ^ 28) + j := by
    rw [UInt32.toNat_add, toNat_mul_sixteen, UInt32.toNat_ofNat']
    omega
  have hmn : SameSectors m n ↔ m.toNat % 2 ^ 28 = n.toNat % 2 ^ 28 := by
    rw [SameSectors, ← UInt32.toNat_inj, toNat_mul_sixteen, toNat_mul_sixteen]
    omega
  rw [hcancel, UInt32.toNat_sub, hm', toNat_mul_sixteen, hmn]
  constructor <;> intro h <;> omega

/-- Writing a cluster of a mounted file system keeps the drive working. -/
lemma kssfsWriteCluster_faithful {s : Kssfs} (hide : s.ide.Faithful) (n : LONG)
    (buf : ℕ → BYTE) : (kssfsWriteCluster s n buf).ide.Faithful := by
  unfold kssfsWriteCluster
  split_ifs
  · exact hide
  · exact hide
  · exact (writeSectors_spec (clstrLba s.lba n) buf 16 0 s.ide hide (by decide)).1

/-- Writing the sectors of cluster `n` replaces the clusters that have these sectors and leaves the
others alone. -/
lemma clusterByte_writeSectors {d : Ide} (hide : d.Faithful) (lba n m : LONG) (buf : ℕ → BYTE)
    {a : ℕ} (ha : a < 8192) :
    clusterByte (writeSectors (clstrLba lba n) buf 16 0 d).disk lba m a =
      if SameSectors m n then buf a else clusterByte d.disk lba m a := by
  obtain ⟨-, hw⟩ := writeSectors_spec (clstrLba lba n) buf 16 0 d hide (by decide)
  obtain ⟨hsame, hother⟩ := clstrLba_dist lba m n (show a / 512 < 16 by omega)
  rw [clusterByte, sectorByte, hw _ _ (by omega)]
  by_cases hmn : SameSectors m n
  · rw [hsame hmn, if_pos (by omega), if_pos hmn, Nat.div_add_mod]
  · have := hother hmn
    rw [if_neg (by omega), if_neg hmn, clusterByte, sectorByte]

/-- Writing cluster `n` replaces the clusters on the disk that have the sectors of `n` and leaves
the others alone. -/
lemma clusterByte_writeCluster {s : Kssfs} (hide : s.ide.Faithful) (hlba : s.lba ≠ 0)
    {n : LONG} (hn : n ≤ s.clusterN) (m : LONG) (buf : ℕ → BYTE) {a : ℕ} (ha : a < 8192) :
    clusterByte (kssfsWriteCluster s n buf).ide.disk s.lba m a =
      if SameSectors m n then buf a else clusterByte s.ide.disk s.lba m a := by
  rw [kssfsWriteCluster, if_neg hlba, if_neg (UInt32.not_lt.mpr hn)]
  exact clusterByte_writeSectors hide s.lba n m buf ha

/-- Writing a cluster changes nothing but the drive. -/
lemma kssfsWriteCluster_frame (s : Kssfs) (n : LONG) (buf : ℕ → BYTE) :
    (kssfsWriteCluster s n buf).lba = s.lba ∧ (kssfsWriteCluster s n buf).buf = s.buf ∧
    (kssfsWriteCluster s n buf).clusterIndex = s.clusterIndex ∧
    (kssfsWriteCluster s n buf).clusterN = s.clusterN := by
  unfold kssfsWriteCluster
  split_ifs <;> exact ⟨rfl, rfl, rfl, rfl⟩

end Korolev
