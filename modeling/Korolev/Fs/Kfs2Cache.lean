import Korolev.Fs.Kfs2
import Korolev.Library.Run

set_option relaxedAutoImplicit false
set_option autoImplicit false

/-!
# Coherence of the KFS2 cluster buffer

One buffer serves the header read of `kfs2_init`, the directory scan of `kfs2_open_file` and the
data reads of `kfs2_read_byte`. The invariant that keeps its index in step with its bytes
(`Korolev.ClusterCache.Inv`) is carried here through the functions of the file system, failed and
repeated mounts included.

## Main results

* `Korolev.Kfs2.inv_step` — every call keeps the invariant.
* `Korolev.kfs2_cache_coherent` — coherence along every sequence of calls from boot.
-/

namespace Korolev

open Bytes

namespace Kfs2

variable {disk : ℕ → BYTE} {s : Kfs2}

/-- Mounting keeps the invariant. A mount that gets past the signature check resets the index;
one that does not resets `kfs2_lba`. -/
lemma inv_init (h : s.Inv disk) (lba : LONG) : (kfs2Init s lba).2.Inv disk := by
  unfold kfs2Init
  by_cases hm : s.lba ≠ 0
  · rw [if_pos hm]
    exact h
  · rw [if_neg hm]
    dsimp only [Kfs2.puts]
    rw [ideReadSector_of_faithful h.faithful]
    dsimp only
    rw [if_neg (by decide)]
    split_ifs
    · exact ⟨h.faithful, h.disk_eq, fun h0 => absurd rfl h0⟩
    · exact ⟨h.faithful, h.disk_eq, fun _ h1 => absurd rfl h1⟩

/-- Reading a cluster keeps the invariant. -/
lemma inv_readCluster (h : s.Inv disk) (n : LONG) : (kfs2ReadCluster s n).Inv disk :=
  h.readCluster n

/-- Following a chain of clusters keeps the invariant. -/
lemma inv_walk (h : s.Inv disk) (clstr : LONG) (clstrN : ℕ) :
    (kfs2Walk s clstr clstrN).1.Inv disk := by
  induction clstrN generalizing s clstr with
  | zero => exact inv_readCluster h clstr
  | succ clstrN ih => exact ih (inv_readCluster h clstr) _

/-- The byte loop of `kfs2_read_byte` keeps the invariant. -/
lemma inv_readLoop (start : LONG) (stray : Kfs2Below) (n : ℕ) :
    ∀ {s : Kfs2} (i clstr clstrN : LONG), s.Inv disk →
      (kfs2ReadLoop start stray n i clstr clstrN s).1.Inv disk := by
  induction n with
  | zero => exact fun i clstr clstrN h => h
  | succ n ih => exact fun i clstr clstrN h => ih _ _ _ (inv_walk h _ _)

/-- `kfs2_read_byte` keeps the invariant. -/
lemma inv_readByte (h : s.Inv disk) (clstrN₀ : LONG) (stray : Kfs2Below)
    (file n off : LONG) : (kfs2ReadByte s clstrN₀ stray file n off).2.2.Inv disk := by
  unfold kfs2ReadByte
  dsimp only
  split_ifs
  · exact h
  · exact inv_readLoop _ stray _ _ _ _ h

/-- Taking a handle keeps the invariant. -/
lemma inv_takeHandle (h : s.Inv disk) (i : LONG) (n : ℕ) :
    ∀ j, (kfs2TakeHandle s i n j).2.Inv disk := by
  induction n with
  | zero => exact fun j => h
  | succ n ih =>
    intro j
    rw [kfs2TakeHandle]
    split_ifs
    · exact h
    · exact ih (j + 1)

/-- The directory scan of `kfs2_open_file` keeps the invariant. -/
lemma inv_openScan (filename : ℕ → BYTE) (n : ℕ) : ∀ {s : Kfs2} (i : LONG), s.Inv disk →
    (kfs2OpenScan filename n i s).2.Inv disk := by
  induction n with
  | zero => exact fun i h => h
  | succ n ih =>
    intro s i h
    rw [kfs2OpenScan]
    split_ifs
    · exact ih _ (inv_readCluster h i)
    · exact inv_takeHandle (inv_readCluster h i) i _ 0
    · exact ih _ (inv_readCluster h i)

/-- Closing a file keeps the invariant. -/
lemma inv_closeFile (h : s.Inv disk) (handle : LONG) : (kfs2CloseFile s handle).Inv disk := by
  unfold kfs2CloseFile
  split_ifs <;> exact h

/-- Every call keeps the invariant. -/
lemma inv_step (h : s.Inv disk) (op : Kfs2Op) : (s.step op).Inv disk := by
  cases op with
  | init lba => exact inv_init h lba
  | readCluster n => exact inv_readCluster h n
  | openFile filename => exact inv_openScan filename _ _ h
  | readByte clstrN₀ stray file n off => exact inv_readByte h clstrN₀ stray file n off
  | closeFile handle => exact inv_closeFile h handle

/-- The invariant holds at boot, where nothing is mounted. -/
lemma inv_boot {ide : Ide} (h : ide.Faithful) : (Kfs2.boot ide).Inv ide.disk :=
  ⟨h, rfl, fun h0 => absurd rfl h0⟩

end Kfs2

/-- **Cache coherence.** After every sequence of calls from boot on a working drive: if a file
system is mounted and `kfs2_cluster_index` names a cluster, the buffer holds the 16 sectors of
that cluster; and after reading any cluster in range of a mounted file system it holds that
cluster. -/
theorem kfs2_cache_coherent (ide : Ide) (hide : ide.Faithful) (ops : List Kfs2Op) :
    let s := Run.run Kfs2.step (Kfs2.boot ide) ops
    (s.lba ≠ 0 → s.clusterIndex ≠ 0xffffffff →
      ∀ a < 8192, s.buf a = clusterByte ide.disk s.lba s.clusterIndex a) ∧
    (s.lba ≠ 0 → ∀ n < s.clusterN,
      ∀ a < 8192, (kfs2ReadCluster s n).buf a = clusterByte ide.disk s.lba n a) := by
  intro s
  have hinv : s.Inv ide.disk := Run.run_invariant_of_forall (I := fun s : Kfs2 => s.Inv ide.disk)
    (fun _ op hs => Kfs2.inv_step hs op) (Kfs2.inv_boot hide) ops
  refine ⟨hinv.coherent, fun hlba n hn => ?_⟩
  exact hinv.readCluster_buf hlba (UInt32.le_of_lt hn) (by grind)

/-- A drive that never fails, with a KFS2 header announcing two clusters at sector `1`. -/
def kfs2SampleIde : Ide where
  disk := fun a => if 512 ≤ a then ofList [0x27, 0x96, 0x01, 0x37, 2] (a - 512) else 0
  fault := fun _ => false
  calls := 0

/-- A run that fails to mount, mounts, reads a cluster and mounts again in vain. -/
theorem kfs2_cache_coherent_sample :
    let s := Run.run Kfs2.step (Kfs2.boot kfs2SampleIde)
      [.init 5, .init 1, .readCluster 1, .init 7]
    s.lba = 1 ∧ s.clusterIndex = 1 ∧
    ∀ a < 8192, s.buf a = clusterByte kfs2SampleIde.disk s.lba s.clusterIndex a :=
  ⟨by decide, by decide,
    (kfs2_cache_coherent kfs2SampleIde (fun _ => rfl)
      [.init 5, .init 1, .readCluster 1, .init 7]).1 (by decide) (by decide)⟩

end Korolev
