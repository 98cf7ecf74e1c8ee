import Korolev.Fs.Kfs2Open
import Korolev.Fs.KssfsCache

set_option relaxedAutoImplicit false
set_option autoImplicit false

/-!
# Cluster reads on a drive that fails

Reading a cluster is 16 reads of a sector, whose results are not looked at. Where one of them fails
the buffer keeps what it had, and the index is set all the same. A second read of the cluster is
then a hit: it does not go to the drive, no sector read fails, and the buffer has the wrong bytes.

Any other later read repairs the buffer, so what counts is whether a failed read leaves bytes that
are not those of the cluster.

## Main definitions

* `Korolev.ClusterCache.ErrorFree` — no sector read fails during a call.
* `Korolev.ClusterCache.ReadsRight` — after an error-free call the buffer holds the cluster.
* `Korolev.ClusterCache.Harmless` — the sectors whose read fails are in the buffer already.

## Main results

* `Korolev.ClusterCache.readCluster_fault` — what a read does, whichever sector reads fail.
* `Korolev.ClusterCache.along_harmless_iff` — when no error-free read goes wrong.
* `Korolev.read_cluster_faults_iff` — the same for both file systems, after a mount.
-/

namespace Korolev

open Bytes

namespace ClusterCache

/-- No sector read fails during the call that reads cluster `n`. -/
def ErrorFree (c : ClusterCache) (n : LONG) : Prop :=
  ∀ k, c.ide.calls ≤ k → k < (c.readCluster n).ide.calls → c.ide.fault k = false

/-- If no sector read fails, the buffer holds cluster `n` afterwards. -/
def ReadsRight (c : ClusterCache) (n : LONG) : Prop :=
  c.ErrorFree n → ∀ a < 8192, (c.readCluster n).buf a = clusterByte c.ide.disk c.lba n a

/-- If the call goes to the drive, the bytes of each sector whose read fails are in the buffer
already. -/
def Harmless (c : ClusterCache) (n : LONG) : Prop :=
  n ≠ c.clusterIndex → ∀ i < 16, c.ide.fault (c.ide.calls + i) = true →
    ∀ k < 512, c.buf (512 * i + k) = clusterByte c.ide.disk c.lba n (512 * i + k)

variable {c : ClusterCache} {n : LONG}

/-! ## One read -/

/-- A read of the cached cluster does nothing. -/
lemma readCluster_hit (hhit : n = c.clusterIndex) : c.readCluster n = c := by
  rcases readCluster_cases c n with ⟨-, heq⟩ | ⟨-, -, hne, -⟩
  · exact heq
  · exact absurd hhit hne

/-- A read of another cluster makes 16 calls, and moves the sectors whose read does not fail. -/
lemma readCluster_fault (hlba : c.lba ≠ 0) (hn : n ≤ c.clusterN) (hmiss : n ≠ c.clusterIndex) :
    (c.readCluster n).ide = { c.ide with calls := c.ide.calls + 16 } ∧
    ∀ a < 8192, (c.readCluster n).buf a =
      if c.ide.fault (c.ide.calls + a / 512) = false then clusterByte c.ide.disk c.lba n a
      else c.buf a := by
  obtain ⟨hd, hb⟩ := readSectors_fault_spec (clstrLba c.lba n) 16 0 c.ide c.buf
  rcases readCluster_cases c n with ⟨h0 | hlt | hhit, -⟩ | ⟨-, -, -, heq⟩
  · exact absurd h0 hlba
  · exact absurd hn (UInt32.not_le.mpr hlt)
  · exact absurd hhit hmiss
  · rw [heq]
    refine ⟨hd, fun a ha => ?_⟩
    dsimp only
    rw [hb a, Nat.sub_zero]
    exact if_congr (and_iff_right (by omega)) rfl rfl

/-- Reading a cluster leaves the contents of the drive alone, and its faults. -/
lemma readCluster_disk (c : ClusterCache) (n : LONG) :
    (c.readCluster n).ide.disk = c.ide.disk ∧ (c.readCluster n).ide.fault = c.ide.fault := by
  rcases readCluster_cases c n with ⟨-, heq⟩ | ⟨hlba, hn, hmiss, -⟩
  · rw [heq]
    exact ⟨rfl, rfl⟩
  · rw [(readCluster_fault hlba hn hmiss).1]
    exact ⟨rfl, rfl⟩

/-- A harmless read leaves the cluster in the buffer. -/
lemma Harmless.buf (h : c.Harmless n) (hlba : c.lba ≠ 0) (hn : n ≤ c.clusterN)
    (hmiss : n ≠ c.clusterIndex) :
    ∀ a < 8192, (c.readCluster n).buf a = clusterByte c.ide.disk c.lba n a := by
  intro a ha
  rw [(readCluster_fault hlba hn hmiss).2 a ha]
  split_ifs with hok
  · rfl
  · have hkept := h hmiss (a / 512) (by omega) (by simpa using hok) (a % 512) (by omega)
    rwa [Nat.div_add_mod] at hkept

/-- If reading cluster `n` once more is right, the first read was harmless: the second one is a
hit. -/
lemma harmless_of_readsRight (hlba : c.lba ≠ 0) (hn : n ≤ c.clusterN)
    (h : (c.readCluster n).ReadsRight n) : c.Harmless n := by
  intro hmiss i hi hfault k hk
  have hhit : (c.readCluster n).readCluster n = c.readCluster n :=
    readCluster_hit (readCluster_clusterIndex hlba hn).symm
  have hfree : (c.readCluster n).ErrorFree n := by
    intro j hle hlt
    rw [hhit] at hlt
    omega
  have hbuf := h hfree (512 * i + k) (by omega)
  have hdiv : (512 * i + k) / 512 = i := by omega
  rw [hhit, (readCluster_fault hlba hn hmiss).2 _ (by omega), hdiv, if_neg (by simp [hfault]),
    (readCluster_disk c n).1, readCluster_lba] at hbuf
  exact hbuf

/-! ## Runs -/

/-- The buffer holds the cluster its index names, if it names one. -/
def Coherent (c : ClusterCache) : Prop :=
  c.clusterIndex ≠ 0xffffffff → ∀ a < 8192, c.buf a = clusterByte c.ide.disk c.lba c.clusterIndex a

/-- Harmless reads keep the buffer coherent. -/
lemma Coherent.readCluster (h : c.Coherent) (hlba : c.lba ≠ 0) (hn : n ≤ c.clusterN)
    (hharm : c.Harmless n) : (c.readCluster n).Coherent := by
  by_cases hhit : n = c.clusterIndex
  · rw [readCluster_hit hhit]
    exact h
  · intro _
    rw [readCluster_clusterIndex hlba hn, readCluster_lba, (readCluster_disk c n).1]
    exact hharm.buf hlba hn hhit

/-- With a coherent buffer, error-free reads are right. -/
lemma Coherent.readsRight (h : c.Coherent) (hlba : c.lba ≠ 0) (hn : n < c.clusterN) :
    c.ReadsRight n := by
  intro hfree a ha
  have hle := UInt32.le_of_lt hn
  by_cases hhit : n = c.clusterIndex
  · rw [readCluster_hit hhit, hhit]
    exact h (by rw [← hhit]; grind) a ha
  · obtain ⟨hide, hbuf⟩ := readCluster_fault hlba hle hhit
    have hcall : c.ide.fault (c.ide.calls + a / 512) = false := by
      refine hfree _ (by omega) ?_
      rw [hide]
      dsimp only
      omega
    rw [hbuf a ha, if_pos hcall]

/-- **When no error-free read goes wrong.** From a mounted file system with nothing cached, for
every sequence of reads: all of them are harmless iff after each of them, and before the first,
every error-free read is right.

**Proof sketch.** Harmless reads keep the buffer coherent, which makes error-free reads right. In
the other direction, the read that shows that a read was harmless is a second one of the same
cluster. -/
lemma along_harmless_iff (hlba : c.lba ≠ 0) (hempty : c.clusterIndex = 0xffffffff)
    {ops : List LONG} (hops : ∀ n ∈ ops, n < c.clusterN) :
    Run.Along readCluster Harmless c ops ↔
      ∀ pre post, ops = pre ++ post →
        ∀ n < c.clusterN, (Run.run readCluster c pre).ReadsRight n := by
  have hframe : ∀ pre, (Run.run readCluster c pre).lba = c.lba ∧
      (Run.run readCluster c pre).clusterN = c.clusterN :=
    Run.run_invariant_of_forall (I := fun b => b.lba = c.lba ∧ b.clusterN = c.clusterN)
      (fun b n h => ⟨(readCluster_lba b n).trans h.1, (readCluster_clusterN b n).trans h.2⟩)
      ⟨rfl, rfl⟩
  constructor
  · rintro hharm pre post rfl n hn
    obtain ⟨hl, hN⟩ := hframe pre
    have hcoh : (Run.run readCluster c pre).Coherent := by
      have hok := (Run.along_and readCluster Harmless (fun _ n => n < c.clusterN) c pre).mpr
        ⟨((Run.along_append _ _ _ _ _).mp hharm).1,
          Run.along_iff_forall_mem.mpr fun n hn => hops n (List.mem_append_left post hn)⟩
      refine (Run.run_invariant (I := fun b => b.lba = c.lba ∧ b.clusterN = c.clusterN ∧ b.Coherent)
        ?_ ⟨rfl, rfl, fun h => absurd hempty h⟩ hok).2.2
      rintro b n ⟨hl, hN, hb⟩ ⟨hharm, hn⟩
      refine ⟨(readCluster_lba b n).trans hl, (readCluster_clusterN b n).trans hN, ?_⟩
      exact hb.readCluster (by rw [hl]; exact hlba) (by rw [hN]; exact UInt32.le_of_lt hn) hharm
    exact hcoh.readsRight (by rw [hl]; exact hlba) (by rw [hN]; exact hn)
  · intro h
    rw [Run.along_iff_split]
    rintro pre n post rfl
    obtain ⟨hl, hN⟩ := hframe pre
    have hn : n < c.clusterN := hops n (by simp)
    refine harmless_of_readsRight (by rw [hl]; exact hlba)
      (by rw [hN]; exact UInt32.le_of_lt hn) ?_
    have hagain := h (pre ++ [n]) post (by simp) n hn
    rwa [Run.run_append] at hagain

end ClusterCache

/-! ## The file systems -/

/-- After a successful mount nothing is cached, whichever calls fail. -/
lemma kfs2Init_index {s₀ : Kfs2} {lba : LONG} (h : (kfs2Init s₀ lba).1 = 1) :
    (kfs2Init s₀ lba).2.lba = lba ∧ (kfs2Init s₀ lba).2.clusterIndex = 0xffffffff := by
  unfold kfs2Init at h ⊢
  dsimp only [Kfs2.puts] at h ⊢
  split_ifs at h ⊢ with h0 hread hsig
  · simp at h
  · simp at h
  · simp at h
  · exact ⟨rfl, rfl⟩

/-- After a successful mount nothing is cached, whichever calls fail. -/
lemma kssfsInit_index {s₀ : Kssfs} {lba : LONG} (h : (kssfsInit s₀ lba).1 = 1) :
    (kssfsInit s₀ lba).2.lba = lba ∧ (kssfsInit s₀ lba).2.clusterIndex = 0xffffffff := by
  unfold kssfsInit at h ⊢
  dsimp only [Kssfs.puts] at h ⊢
  split_ifs at h ⊢ with h0 hread hsig
  · simp at h
  · simp at h
  · simp at h
  · exact ⟨rfl, rfl⟩

/-- After a successful mount the buffer is cleared. -/
lemma kfs2Init_buf {s₀ : Kfs2} {lba : LONG} (h : (kfs2Init s₀ lba).1 = 1) :
    ∀ a < 8192, (kfs2Init s₀ lba).2.buf a = 0 := by
  intro a ha
  unfold kfs2Init at h ⊢
  dsimp only [Kfs2.puts] at h ⊢
  split_ifs at h ⊢ with h0 hread hsig
  · simp at h
  · simp at h
  · simp at h
  · dsimp only
    rw [kmemset_eq_blit, blit_of_mem (Nat.zero_le a) (by omega)]

/-- After a successful mount the buffer is cleared. -/
lemma kssfsInit_buf {s₀ : Kssfs} {lba : LONG} (h : (kssfsInit s₀ lba).1 = 1) :
    ∀ a < 8192, (kssfsInit s₀ lba).2.buf a = 0 := by
  intro a ha
  unfold kssfsInit at h ⊢
  dsimp only [Kssfs.puts] at h ⊢
  split_ifs at h ⊢ with h0 hread hsig
  · simp at h
  · simp at h
  · simp at h
  · dsimp only
    rw [kmemset_eq_blit, blit_of_mem (Nat.zero_le a) (by omega)]

/-- **A failed sector read can be cached.** After a successful mount of KFS2 or KSSFS on a drive
whose calls may fail in any pattern, for every sequence of cluster reads in range: every read is
harmless (`Korolev.ClusterCache.Harmless`) iff before the first and after each of them, every read
in range during which no sector read fails leaves exactly the cluster in the buffer. -/
theorem read_cluster_faults_iff (s₀ : Kfs2) (t₀ : Kssfs) (lba lba' : LONG) (hlba : lba ≠ 0)
    (hlba' : lba' ≠ 0) (hs : (kfs2Init s₀ lba).1 = 1) (ht : (kssfsInit t₀ lba').1 = 1)
    (ops ops' : List LONG) (hops : ∀ n ∈ ops, n < (kfs2Init s₀ lba).2.clusterN)
    (hops' : ∀ n ∈ ops', n < (kssfsInit t₀ lba').2.clusterN) :
    (Run.Along kfs2ReadCluster (fun s n => s.Harmless n) (kfs2Init s₀ lba).2 ops ↔
      ∀ pre post, ops = pre ++ post → ∀ n < (kfs2Init s₀ lba).2.clusterN,
        (Run.run kfs2ReadCluster (kfs2Init s₀ lba).2 pre).ReadsRight n) ∧
    (Run.Along kssfsReadCluster (fun s n => s.Harmless n) (kssfsInit t₀ lba').2 ops' ↔
      ∀ pre post, ops' = pre ++ post → ∀ n < (kssfsInit t₀ lba').2.clusterN,
        (Run.run kssfsReadCluster (kssfsInit t₀ lba').2 pre).ReadsRight n) := by
  constructor
  · obtain ⟨hl, hi⟩ := kfs2Init_index hs
    have hmap : ∀ (s : Kfs2) n, (kfs2ReadCluster s n).toClusterCache =
        s.toClusterCache.readCluster n := fun _ _ => rfl
    rw [Run.along_map hmap ClusterCache.Harmless,
      ClusterCache.along_harmless_iff (by rw [hl]; exact hlba) hi hops]
    simp only [Run.run_map hmap]
  · obtain ⟨hl, hi⟩ := kssfsInit_index ht
    have hmap : ∀ (s : Kssfs) n, (kssfsReadCluster s n).toClusterCache =
        s.toClusterCache.readCluster n := fun _ _ => rfl
    rw [Run.along_map hmap ClusterCache.Harmless,
      ClusterCache.along_harmless_iff (by rw [hl]; exact hlba') hi hops']
    simp only [Run.run_map hmap]

/-- A drive with a file system of two clusters at sector `1`, which are `0` but for their first
bytes. The reads of the other sectors fail until both clusters were read. -/
def failingIde (signature : BYTE) : Ide where
  disk := fun a =>
    if a = 1024 then 1
    else if a = 9216 then 2
    else if 512 ≤ a then ofList [signature, 0x96, 0x01, 0x37, 2] (a - 512)
    else 0
  fault := fun c => 1 < c && c ≤ 32 && c != 17
  calls := 0

/-- Behind their first sectors the clusters of that drive are `0`. -/
lemma clusterByte_failingIde (signature : BYTE) {n : LONG} (hn : n < 2) {a : ℕ} (hlo : 512 ≤ a)
    (ha : a < 8192) : clusterByte (failingIde signature).disk 1 n a = 0 := by
  have hlba : (clstrLba 1 n).toNat = 2 + 16 * n.toNat ∧ n.toNat < 2 := by
    have h2 := UInt32.lt_iff_toNat_lt.mp hn
    have hN : (2 : LONG).toNat = 2 := rfl
    refine ⟨?_, by omega⟩
    simp only [clstrLba, UInt32.toNat_add, UInt32.toNat_mul, UInt32.toNat_ofNat]
    omega
  have hsector : (clstrLba 1 n + UInt32.ofNat (a / 512)).toNat = 2 + 16 * n.toNat + a / 512 := by
    rw [toNat_add_ofNat (by omega), hlba.1]
  rw [clusterByte, sectorByte, hsector]
  simp only [failingIde]
  rw [if_neg (by omega), if_neg (by omega), if_pos (by omega), ofList,
    List.getD_eq_default _ _ (by simp only [List.length_cons, List.length_nil]; omega)]

/-- Its clusters are read one after the other: 15 reads of sectors fail each time, and what they
leave in the buffer is right. -/
lemma along_harmless_failingIde (signature : BYTE) {c : ClusterCache}
    (hide : c.ide = { failingIde signature with calls := 1 }) (hlba : c.lba = 1)
    (hn : c.clusterN = 2) (hindex : c.clusterIndex = 0xffffffff) (hbuf : ∀ a < 8192, c.buf a = 0) :
    Run.Along ClusterCache.readCluster ClusterCache.Harmless c [0, 1] := by
  have hne : c.lba ≠ 0 := by
    rw [hlba]
    decide
  -- only the reads of the first sectors do not fail
  have hbehind : ∀ {k i : ℕ}, k = 1 ∨ k = 17 → (failingIde signature).fault (k + i) = true →
      0 < i := by
    intro k i hk hfault
    by_contra hzero
    obtain rfl : i = 0 := by omega
    obtain rfl | rfl := hk
    · exact absurd hfault Bool.false_ne_true
    · exact absurd hfault Bool.false_ne_true
  obtain ⟨hide', hbuf'⟩ := ClusterCache.readCluster_fault (n := 0) hne (by rw [hn]; decide)
    (by rw [hindex]; decide)
  refine ⟨fun _ i hi hfault k hk => ?_, fun _ i hi hfault k hk => ?_, trivial⟩
  · rw [hide] at hfault
    have hpos := hbehind (.inl rfl) hfault
    rw [hide, hlba, hbuf _ (by omega),
      clusterByte_failingIde signature (by decide) (by omega) (by omega)]
  · rw [hide', hide] at hfault
    have hpos := hbehind (.inr rfl) hfault
    rw [hbuf' _ (by omega), hide', ClusterCache.readCluster_lba, hide, hlba, hbuf _ (by omega),
      clusterByte_failingIde signature (by decide) (by omega) (by omega),
      clusterByte_failingIde signature (by decide) (by omega) (by omega), ite_self]

/-- After 30 failed reads of sectors on that drive, reading the first cluster again is free of
errors, and right, for either file system. -/
theorem read_cluster_faults_iff_failing :
    let s := Run.run kfs2ReadCluster (kfs2Init (Kfs2.boot (failingIde 0x27)) 1).2 [0, 1]
    let t := Run.run kssfsReadCluster (kssfsInit (Kssfs.boot (failingIde 0x26)) 1).2 [0, 1]
    (s.ErrorFree 0 ∧ s.ReadsRight 0) ∧ (t.ErrorFree 0 ∧ t.ReadsRight 0) := by
  intro s t
  have hmount : (kfs2Init (Kfs2.boot (failingIde 0x27)) 1).1 = 1 := by decide +kernel
  have hn : (kfs2Init (Kfs2.boot (failingIde 0x27)) 1).2.clusterN = 2 := by decide +kernel
  have hmount' : (kssfsInit (Kssfs.boot (failingIde 0x26)) 1).1 = 1 := by decide +kernel
  have hn' : (kssfsInit (Kssfs.boot (failingIde 0x26)) 1).2.clusterN = 2 := by decide +kernel
  have hrange : ∀ n ∈ [0, 1], n < (2 : LONG) := by simp
  obtain ⟨hiff, hiff'⟩ := read_cluster_faults_iff (Kfs2.boot (failingIde 0x27))
    (Kssfs.boot (failingIde 0x26)) 1 1 (by decide) (by decide) hmount hmount' [0, 1] [0, 1]
    (by rw [hn]; exact hrange) (by rw [hn']; exact hrange)
  have hlate : ∀ signature k, 33 ≤ k → (failingIde signature).fault k = false := by
    intro signature k hk
    simp only [failingIde, Bool.and_eq_false_iff, decide_eq_false_iff_not]
    omega
  have hcalls : s.ide.calls = 33 := by decide +kernel
  have hcalls' : t.ide.calls = 33 := by decide +kernel
  refine ⟨⟨fun k hk _ => hlate 0x27 k (hcalls ▸ hk), ?_⟩, fun k hk _ => hlate 0x26 k (hcalls' ▸ hk),
    ?_⟩
  · refine hiff.mp ?_ [0, 1] [] rfl 0 (by rw [hn]; decide)
    have hmap : ∀ (s : Kfs2) n, (kfs2ReadCluster s n).toClusterCache =
        s.toClusterCache.readCluster n := fun _ _ => rfl
    rw [Run.along_map hmap ClusterCache.Harmless]
    exact along_harmless_failingIde 0x27 rfl rfl hn rfl (kfs2Init_buf hmount)
  · refine hiff'.mp ?_ [0, 1] [] rfl 0 (by rw [hn']; decide)
    have hmap : ∀ (s : Kssfs) n, (kssfsReadCluster s n).toClusterCache =
        s.toClusterCache.readCluster n := fun _ _ => rfl
    rw [Run.along_map hmap ClusterCache.Harmless]
    exact along_harmless_failingIde 0x26 rfl rfl hn' rfl (kssfsInit_buf hmount')

/-- The drive with one file, where the reads of the first cluster fail and later ones do not. -/
def kfs2FaultyIde : Ide := { kfs2OneFileIde with fault := fun c => 1 ≤ c && c ≤ 16 }

/-- The cluster is read twice on that drive. During the second read no sector read fails, and the
buffer is not the cluster. -/
theorem read_cluster_caches_failure :
    let s := (kfs2Init (Kfs2.boot kfs2FaultyIde) 1).2
    (kfs2Init (Kfs2.boot kfs2FaultyIde) 1).1 = 1 ∧ s.lba ≠ 0 ∧ 0 < s.clusterN ∧
    ¬(Run.run kfs2ReadCluster s [0]).ReadsRight 0 := by
  intro s
  refine ⟨by decide +kernel, by decide +kernel, by decide +kernel, fun h => ?_⟩
  have hhit : (kfs2ReadCluster (kfs2ReadCluster s 0) 0).ide.calls =
      (kfs2ReadCluster s 0).ide.calls := by decide +kernel
  have hfree : (kfs2ReadCluster s 0).ErrorFree 0 := by
    intro k hle hlt
    exact absurd (hle.trans_lt (hlt.trans_eq hhit)) (lt_irrefl _)
  have hbuf := h hfree 0 (by decide)
  revert hbuf
  decide +kernel

end Korolev
