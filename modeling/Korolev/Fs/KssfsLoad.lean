import Korolev.Fs.KssfsCache
import Korolev.Libc.Strncmp

set_option relaxedAutoImplicit false
set_option autoImplicit false

/-!
# Loading a file of KSSFS

`kssfs_read_file` looks at the clusters in order and copies the data of the first one that has the
name. A cluster holds 7680 bytes of data; how many are copied is a 16-bit field of its header, which
is used as it is. So a load is bounded by the cluster exactly when the field of that one cluster is.

The clusters are those on the disk, but for cluster `0` when it is in the buffer already.

## Main definitions

* `Korolev.Kssfs.seen` — a cluster, as the lookup sees it.
* `Korolev.Kssfs.Finds` — the cluster that has the name.
* `Korolev.LoadsBounded` — a load stays inside of the destination and of the cluster.

## Main results

* `Korolev.kssfsReadFile_cases` — everything a load can do.
* `Korolev.kssfs_load_bounded_iff` — when it is bounded by the cluster.
-/

namespace Korolev

open Bytes

/-- Cluster `i` as `kssfs_read_file` sees it. -/
def Kssfs.seen (s : Kssfs) (i : LONG) : ℕ → BYTE :=
  if i = 0 ∧ s.clusterIndex = 0 then s.buf else clusterByte s.ide.disk s.lba i

/-- `strncmp(kssfs_clstr->filename, filename, 256) == 0` for cluster `i`. -/
def Kssfs.Named (s : Kssfs) (filename : ℕ → BYTE) (i : LONG) : Prop :=
  strncmp (kssfsFilename (s.seen i)) filename 256 = 0

/-- Cluster `i` is the first one that has the name. -/
def Kssfs.Finds (s : Kssfs) (filename : ℕ → BYTE) (i : LONG) : Prop :=
  i < s.clusterN ∧ s.Named filename i ∧ ∀ j < i, ¬s.Named filename j

/-- The memory from `kssfs_buf` on when cluster `i` is looked at: the cluster, and what is behind
it. -/
def Kssfs.bufAt (s : Kssfs) (i : LONG) : ℕ → BYTE :=
  fun a => if a < 8192 then s.seen i a else s.buf a

/-! ## The lookup -/

/-- What the lookup has when it comes to cluster `i`: the drive and the mount of `s`, the memory
behind the buffer, and reading cluster `i` brings it into the buffer. -/
structure Kssfs.Scans (s : Kssfs) (i : LONG) (t : Kssfs) : Prop where
  faithful : t.ide.Faithful
  disk_eq : t.ide.disk = s.ide.disk
  lba_eq : t.lba = s.lba
  clusterN_eq : t.clusterN = s.clusterN
  read : (kssfsReadCluster t i).buf = s.bufAt i

section Scan

variable {s t : Kssfs} {filename : ℕ → BYTE} {i : LONG}

/-- The lookup starts with cluster `0`. -/
lemma Kssfs.scans_zero (hide : s.ide.Faithful) (hlba : s.lba ≠ 0) : s.Scans 0 s := by
  refine ⟨hide, rfl, rfl, rfl, ?_⟩
  funext a
  rw [Kssfs.bufAt, kssfsReadCluster]
  by_cases hhit : s.clusterIndex = 0
  · have hseen : s.seen 0 = s.buf := if_pos ⟨rfl, hhit⟩
    rw [hseen, ite_self]
    rcases ClusterCache.readCluster_cases s.toClusterCache 0 with ⟨-, heq⟩ | ⟨-, -, hne, -⟩
    · rw [heq]
    · exact absurd hhit.symm hne
  · have hseen : s.seen 0 = clusterByte s.ide.disk s.lba 0 := if_neg fun h => hhit h.2
    rw [hseen]
    exact ClusterCache.readCluster_miss_buf hide hlba (by simp) (fun h => hhit h.symm) a

/-- After cluster `i` the lookup goes on with the next. -/
lemma Kssfs.Scans.next (h : s.Scans i t) (hlba : s.lba ≠ 0) (hi : i.toNat + 1 ≤ s.clusterN.toNat) :
    s.Scans (i + 1) (kssfsReadCluster t i) := by
  have hmount : t.lba ≠ 0 := by
    rw [h.lba_eq]
    exact hlba
  have hnext : (i + 1).toNat = i.toNat + 1 := toNat_succ_of_lt hi
  obtain ⟨hf, hd⟩ := ClusterCache.readCluster_ide h.faithful i
  refine ⟨hf, hd.trans h.disk_eq, (kssfsReadCluster_lba t i).trans h.lba_eq,
    (kssfsReadCluster_clusterN t i).trans h.clusterN_eq, ?_⟩
  funext a
  have hle : i ≤ t.clusterN := by
    rw [h.clusterN_eq, UInt32.le_iff_toNat_le]
    omega
  have hle' : i + 1 ≤ (kssfsReadCluster t i).clusterN := by
    rw [kssfsReadCluster_clusterN, h.clusterN_eq, UInt32.le_iff_toNat_le]
    omega
  have hmiss : i + 1 ≠ (kssfsReadCluster t i).clusterIndex := by
    have hindex : (kssfsReadCluster t i).clusterIndex = i :=
      ClusterCache.readCluster_clusterIndex hmount hle
    rw [hindex]
    grind
  have hread := ClusterCache.readCluster_miss_buf hf
    (by rw [ClusterCache.readCluster_lba]; exact hmount) hle' hmiss a
  have hne : ¬(i + 1 = 0 ∧ s.clusterIndex = 0) := by
    rintro ⟨h0, -⟩
    rw [h0] at hnext
    simp at hnext
  refine hread.trans ?_
  rw [Kssfs.bufAt, Kssfs.seen, if_neg hne, hd, h.disk_eq, ClusterCache.readCluster_lba, h.lba_eq]
  by_cases ha : a < 8192
  · rw [if_pos ha, if_pos ha]
  · rw [if_neg ha, if_neg ha]
    have hold : (kssfsReadCluster t i).buf a = s.bufAt i a := congrFun h.read a
    rw [Kssfs.bufAt, if_neg ha] at hold
    exact hold

/-- The names of the cluster in the buffer and of the one seen. -/
lemma Kssfs.named_iff (h : s.Scans i t) :
    strncmp (kssfsFilename (kssfsReadCluster t i).buf) filename 256 = 0 ↔ s.Named filename i := by
  have hname : strncmp (kssfsFilename (kssfsReadCluster t i).buf) filename 256 =
      strncmp (kssfsFilename (s.seen i)) filename 256 := by
    rw [h.read]
    exact strncmp_congr fun j hj => if_pos (by omega)
  rw [hname, Kssfs.Named]

/-- **Everything the lookup can end in**, from cluster `i` on with `n` clusters left: no cluster has
the name, or the first one that has it is copied. -/
lemma kssfsReadScan_cases (dest : ℕ → BYTE) (hlba : s.lba ≠ 0) (n : ℕ) : ∀ (i : LONG) (t : Kssfs),
    s.Scans i t → i.toNat + n = s.clusterN.toNat → (∀ j < i, ¬s.Named filename j) →
    ((∀ j < s.clusterN, ¬s.Named filename j) ∧
      (kssfsReadScan dest filename n i t).1 = 0 ∧
      (kssfsReadScan dest filename n i t).2.1 = dest) ∨
    ∃ j, s.Finds filename j ∧ (kssfsReadScan dest filename n i t).1 = 1 ∧
      (kssfsReadScan dest filename n i t).2.1 =
        blit dest 0 (kssfsLen (s.seen j)).toNat fun k => s.bufAt j (512 + k) := by
  induction n with
  | zero =>
    intro i t _ hin hbefore
    refine .inl ⟨fun j hj => hbefore j ?_, rfl, rfl⟩
    rw [UInt32.lt_iff_toNat_lt] at hj ⊢
    omega
  | succ n ih =>
    intro i t hscan hin hbefore
    rw [kssfsReadScan]
    by_cases hname : strncmp (kssfsFilename (kssfsReadCluster t i).buf) filename 256 = 0
    · rw [if_pos hname]
      have hlen : kssfsLen (kssfsReadCluster t i).buf = kssfsLen (s.seen i) := by
        rw [hscan.read]
        exact le16_congr fun k hk => if_pos (by omega)
      refine .inr ⟨i, ⟨?_, (Kssfs.named_iff hscan).mp hname, hbefore⟩, rfl, ?_⟩
      · rw [UInt32.lt_iff_toNat_lt]
        omega
      · rw [memcpy_eq_blit, hlen, hscan.read]
    · rw [if_neg hname]
      have hnext : (i + 1).toNat = i.toNat + 1 :=
        toNat_succ_of_lt (n := s.clusterN) (by omega)
      refine ih (i + 1) _ (hscan.next hlba (by omega)) (by omega) fun j hj hjn => ?_
      -- `i` itself does not have the name
      rcases eq_or_ne j i with rfl | hne
      · exact hname ((Kssfs.named_iff hscan).mpr hjn)
      · refine hbefore j ?_ hjn
        have hne' : j.toNat ≠ i.toNat := fun h => hne (UInt32.toNat_inj.mp h)
        rw [UInt32.lt_iff_toNat_lt] at hj ⊢
        omega

/-- **Everything a load can do**: nothing is mounted or no cluster has the name, and the destination
is left alone; or the first cluster that has the name is copied, as many bytes as its header
says. -/
lemma kssfsReadFile_cases (hide : s.ide.Faithful) (dest filename : ℕ → BYTE) :
    ((s.lba = 0 ∨ ∀ j < s.clusterN, ¬s.Named filename j) ∧
      (kssfsReadFile s dest filename).1 = 0 ∧ (kssfsReadFile s dest filename).2.1 = dest) ∨
    ∃ j, s.lba ≠ 0 ∧ s.Finds filename j ∧ (kssfsReadFile s dest filename).1 = 1 ∧
      (kssfsReadFile s dest filename).2.1 =
        blit dest 0 (kssfsLen (s.seen j)).toNat fun k => s.bufAt j (512 + k) := by
  rw [kssfsReadFile]
  by_cases hlba : s.lba = 0
  · rw [if_pos hlba]
    exact .inl ⟨.inl hlba, rfl, rfl⟩
  · rw [if_neg hlba]
    rcases kssfsReadScan_cases dest hlba s.clusterN.toNat 0 s (Kssfs.scans_zero hide hlba) (by simp)
      (fun j hj => absurd hj (by simp)) with ⟨hnone, h⟩ | ⟨j, hj, h⟩
    · exact .inl ⟨.inr hnone, h⟩
    · exact .inr ⟨j, hlba, hj, h⟩

/-- Only one cluster is found. -/
lemma Kssfs.Finds.unique {j : LONG} (hi : s.Finds filename i) (hj : s.Finds filename j) :
    i = j := by
  rcases Nat.lt_trichotomy i.toNat j.toNat with hlt | heq | hlt
  · exact absurd hi.2.1 (hj.2.2 i (UInt32.lt_iff_toNat_lt.mpr hlt))
  · exact UInt32.toNat_inj.mp heq
  · exact absurd hj.2.1 (hi.2.2 j (UInt32.lt_iff_toNat_lt.mpr hlt))

end Scan

/-! ## Bounds -/

/-- A load is bounded by the cluster: at most 7680 bytes are copied, the bytes are those of the data
area of the cluster that is found, and nothing depends on the memory behind the first 8192 bytes of
the buffer. -/
structure LoadsBounded (s : Kssfs) (filename : ℕ → BYTE) : Prop where
  count : ∀ dest a, 7680 ≤ a → (kssfsReadFile s dest filename).2.1 a = dest a
  source : ∀ dest a, (kssfsReadFile s dest filename).2.1 a = dest a ∨
    ∃ i, s.Finds filename i ∧ a < 7680 ∧ (kssfsReadFile s dest filename).2.1 a = s.seen i (512 + a)
  inside : ∀ dest buf', (∀ a < 8192, buf' a = s.buf a) →
    (kssfsReadFile { s with buf := buf' } dest filename).1 = (kssfsReadFile s dest filename).1 ∧
    (kssfsReadFile { s with buf := buf' } dest filename).2.1 = (kssfsReadFile s dest filename).2.1

section Bounds

variable {s : Kssfs} {filename : ℕ → BYTE}

/-- A cluster that says it has more data than a cluster can hold: the byte behind the cluster is
copied to the byte behind the destination. -/
lemma len_le_of_loadsBounded (hide : s.ide.Faithful) (hlba : s.lba ≠ 0)
    (h : LoadsBounded s filename) {i : LONG} (hi : s.Finds filename i) :
    (kssfsLen (s.seen i)).toNat ≤ 7680 := by
  by_contra hlong
  have hcount := h.count (fun _ => s.buf 8192 + 1) 7680 le_rfl
  rcases kssfsReadFile_cases hide (fun _ => s.buf 8192 + 1) filename with
    ⟨h0 | hnone, -⟩ | ⟨j, -, hj, -, hcopy⟩
  · exact hlba h0
  · exact hnone i hi.1 hi.2.1
  · obtain rfl := hi.unique hj
    rw [hcopy, blit_of_mem (by omega) (by omega)] at hcount
    have hbehind : s.bufAt i (512 + (7680 - 0)) = s.buf 8192 := if_neg (by omega)
    rw [hbehind] at hcount
    grind

/-- The clusters seen do not depend on the memory behind the buffer. -/
lemma Kssfs.seen_congr {buf' : ℕ → BYTE} (h : ∀ a < 8192, buf' a = s.buf a) (i : LONG) {a : ℕ}
    (ha : a < 8192) : ({ s with buf := buf' } : Kssfs).seen i a = s.seen i a := by
  unfold Kssfs.seen
  dsimp only
  split_ifs
  · exact h a ha
  · rfl

lemma Kssfs.named_congr {buf' : ℕ → BYTE} (h : ∀ a < 8192, buf' a = s.buf a) (i : LONG) :
    ({ s with buf := buf' } : Kssfs).Named filename i ↔ s.Named filename i := by
  have hname : strncmp (kssfsFilename (({ s with buf := buf' } : Kssfs).seen i)) filename 256 =
      strncmp (kssfsFilename (s.seen i)) filename 256 :=
    strncmp_congr fun j hj => Kssfs.seen_congr h i (by omega)
  rw [Kssfs.Named, hname, Kssfs.Named]

lemma Kssfs.finds_congr {buf' : ℕ → BYTE} (h : ∀ a < 8192, buf' a = s.buf a) (i : LONG) :
    ({ s with buf := buf' } : Kssfs).Finds filename i ↔ s.Finds filename i := by
  simp only [Kssfs.Finds, Kssfs.named_congr h]

/-- A cluster that says it has no more data than a cluster can hold. -/
lemma loadsBounded_of_len (hide : s.ide.Faithful)
    (hlen : s.lba ≠ 0 → ∀ i, s.Finds filename i → (kssfsLen (s.seen i)).toNat ≤ 7680) :
    LoadsBounded s filename := by
  constructor
  · intro dest a ha
    rcases kssfsReadFile_cases hide dest filename with ⟨-, -, hsame⟩ | ⟨j, hlba, hj, -, hcopy⟩
    · rw [hsame]
    · have hle := hlen hlba j hj
      rw [hcopy, blit_of_not_mem (by omega)]
  · intro dest a
    rcases kssfsReadFile_cases hide dest filename with ⟨-, -, hsame⟩ | ⟨j, hlba, hj, -, hcopy⟩
    · rw [hsame]
      exact .inl rfl
    · have hle := hlen hlba j hj
      rw [hcopy]
      by_cases ha : a < (kssfsLen (s.seen j)).toNat
      · rw [blit_of_mem (by omega) (by omega)]
        exact .inr ⟨j, hj, by omega, if_pos (by omega)⟩
      · exact .inl (blit_of_not_mem (by omega))
  · intro dest buf' hbuf
    rcases kssfsReadFile_cases hide dest filename with ⟨hnot, h0, hsame⟩ | ⟨j, hlba, hj, h1, hcopy⟩
    · rcases kssfsReadFile_cases (s := { s with buf := buf' }) hide dest filename with
        ⟨-, h0', hsame'⟩ | ⟨j', hlba, hj', -, -⟩
      · rw [h0, hsame, h0', hsame']
        exact ⟨rfl, rfl⟩
      · have hj := (Kssfs.finds_congr hbuf j').mp hj'
        obtain hz | hnone := hnot
        · exact absurd hz hlba
        · exact absurd hj.2.1 (hnone j' hj.1)
    · rcases kssfsReadFile_cases (s := { s with buf := buf' }) hide dest filename with
        ⟨hnot, -, -⟩ | ⟨j', -, hj', h1', hcopy'⟩
      · obtain hz | hnone := hnot
        · exact absurd hz hlba
        · exact absurd ((Kssfs.named_congr hbuf j).mpr hj.2.1) (hnone j hj.1)
      · obtain rfl := hj.unique ((Kssfs.finds_congr hbuf j').mp hj')
        have hle := hlen hlba j hj
        have hsamelen : kssfsLen (({ s with buf := buf' } : Kssfs).seen j) = kssfsLen (s.seen j) :=
          le16_congr fun k hk => Kssfs.seen_congr hbuf j (by omega)
        rw [h1, hcopy, h1', hcopy', hsamelen]
        refine ⟨rfl, blit_congr fun k hk => ?_⟩
        rw [Kssfs.bufAt, Kssfs.bufAt, if_pos (by omega), if_pos (by omega)]
        exact Kssfs.seen_congr hbuf j (by omega)

/-- **When a load is bounded by the cluster.** For every contents of the disk and every name: at
most 7680 bytes are copied, they are those of the data area of the cluster that has the name, and
nothing behind the first 8192 bytes of the buffer is read, iff nothing is mounted or the length in
the header of that cluster, if there is one, is at most 7680. -/
theorem kssfs_load_bounded_iff (s : Kssfs) (hide : s.ide.Faithful) (filename : ℕ → BYTE) :
    LoadsBounded s filename ↔
      s.lba = 0 ∨ ∀ i, s.Finds filename i → (kssfsLen (s.seen i)).toNat ≤ 7680 := by
  constructor
  · intro h
    by_cases hlba : s.lba = 0
    · exact .inl hlba
    · exact .inr fun i hi => len_le_of_loadsBounded hide hlba h hi
  · intro h
    exact loadsBounded_of_len hide fun hlba => h.resolve_left hlba

end Bounds

/-- A drive with a KSSFS file system of one cluster at sector `1`: a file named `i` whose header
says that it has `256 * b` bytes. -/
def kssfsLengthIde (b : BYTE) : Ide where
  disk := fun a =>
    if 1024 ≤ a then ofList [1, 0, 0, 0, 0, b, 0x69] (a - 1024)
    else if 512 ≤ a then ofList [0x26, 0x96, 0x01, 0x37, 1] (a - 512)
    else 0
  fault := fun _ => false
  calls := 0

/-- A file that fills its cluster is loaded. -/
theorem kssfs_load_bounded_iff_full :
    LoadsBounded (kssfsInit (Kssfs.boot (kssfsLengthIde 0x1e)) 1).2 (ofList [0x69]) := by
  refine (kssfs_load_bounded_iff _ (fun _ => rfl) _).mpr (.inr fun i hi => ?_)
  have hn : (kssfsInit (Kssfs.boot (kssfsLengthIde 0x1e)) 1).2.clusterN = 1 := by decide +kernel
  obtain rfl : i = 0 := by
    have hlt := UInt32.lt_iff_toNat_lt.mp hi.1
    rw [hn, UInt32.toNat_one] at hlt
    exact UInt32.toNat_inj.mp (by simpa using hlt)
  decide +kernel

/-- Loading a file that says it has 8192 bytes copies more than a cluster. -/
theorem kssfs_load_overflows :
    let s := (kssfsInit (Kssfs.boot (kssfsLengthIde 0x20)) 1).2
    s.lba ≠ 0 ∧ s.Finds (ofList [0x69]) 0 ∧ (kssfsLen (s.seen 0)).toNat = 8192 ∧
    ¬LoadsBounded s (ofList [0x69]) := by
  intro s
  have hlba : s.lba ≠ 0 := by decide +kernel
  have hname : strncmp (kssfsFilename (s.seen 0)) (ofList [0x69]) 256 = 0 := by decide +kernel
  have hfinds : s.Finds (ofList [0x69]) 0 :=
    ⟨by decide +kernel, hname, fun j hj => absurd hj (by simp)⟩
  have hlen : (kssfsLen (s.seen 0)).toNat = 8192 := by decide +kernel
  refine ⟨hlba, hfinds, hlen, fun h => ?_⟩
  have hle := len_le_of_loadsBounded (fun _ => rfl) hlba h hfinds
  omega

end Korolev
