import Korolev.Fs.Kfs2Open
import Korolev.Library.Links

set_option relaxedAutoImplicit false
set_option autoImplicit false

/-!
# Reading files of KFS2

`kfs2_read_byte` finds the cluster of every byte by a walk over the links, from the first cluster
of the file on, and fetches the byte from the cluster buffer. This file says which cluster and
which byte of it that is.

The walk starts at the first cluster unless the number of links equals what is left in `clstr_n`.
That variable is `0` after a walk, so the bytes of cluster `0` of the file are fetched from where
the last walk ended; and it is not initialised, so the first walk can start at cluster `0` of the
file system instead. The offset of the byte is subtracted from the start of the data, where it
should be added.

## Main definitions

* `Korolev.clusterNext` — the link of a cluster on the disk.
* `Korolev.kfs2Reached` — the cluster a byte is fetched from.
* `Korolev.kfs2Fetched` — the byte.
* `Korolev.ReadsFile` — the call returns the bytes of the file.

## Main results

* `Korolev.kfs2Walk_at` — where a walk ends.
* `Korolev.kfs2ReadByte_eq` — the bytes that are read.
* `Korolev.kfs2_read_byte_iff` — when they are those of the file.
-/

namespace Korolev

open Bytes

/-! ## Byte positions -/

/-- The index computed for a byte: its offset is subtracted. -/
lemma kfs2ByteIndex_eq (i : LONG) : kfs2ByteIndex i = 512 - i.toInt32.toInt.tmod 7680 := by
  have hdiv := Int.mul_tdiv_add_tmod i.toInt32.toInt 7680
  have hmod := Int.tmod_lt_of_pos i.toInt32.toInt (show (0 : ℤ) < 7680 by decide)
  have hmod' := Int.lt_tmod_of_pos i.toInt32.toInt (show (0 : ℤ) < 7680 by decide)
  have h7680 : (7680 : Int32).toInt = 7680 := rfl
  rw [kfs2ByteIndex, Int32.toInt_sub, Int32.toInt_mul,
    Int32.toInt_div_of_ne_right _ _ (by decide), h7680, Int.bmod_sub_bmod,
    Int.bmod_eq_of_le_mul_two (by omega) (by omega)]
  omega

/-- The index is inside of the cluster, or below the buffer. -/
lemma kfs2ByteIndex_lt (i : LONG) : kfs2ByteIndex i < 8192 := by
  have hmod := Int.lt_tmod_of_pos i.toInt32.toInt (show (0 : ℤ) < 7680 by decide)
  rw [kfs2ByteIndex_eq]
  omega

lemma toInt_toInt32 {i : LONG} (h : i.toNat < 2 ^ 31) : i.toInt32.toInt = i.toNat :=
  BitVec.toInt_eq_toNat_of_lt (show 2 * i.toNat < 2 ^ 32 by omega)

/-- The index of a byte of a file that is not too large. -/
lemma kfs2ByteIndex_of_lt {i : LONG} (h : i.toNat < 2 ^ 31) :
    kfs2ByteIndex i = 512 - (i.toNat % 7680 : ℕ) := by
  rw [kfs2ByteIndex_eq, toInt_toInt32 h]
  rfl

/-- The cluster of a byte of a file that is not too large. -/
lemma kfs2ByteClstr_of_lt {i : LONG} (h : i.toNat < 2 ^ 31) :
    (kfs2ByteClstr i).toNat = i.toNat / 7680 := by
  have h7680 : (7680 : Int32).toInt = 7680 := rfl
  have hquot : (i.toInt32 / 7680).toInt = (i.toNat / 7680 : ℕ) := by
    rw [Int32.toInt_div_of_ne_right _ _ (by decide), toInt_toInt32 h, h7680]
    rfl
  have hpos : (0 : Int32) ≤ i.toInt32 / 7680 := by
    rw [Int32.le_iff_toInt_le, hquot]
    exact Int.natCast_nonneg _
  rw [kfs2ByteClstr, Int32.toNat_toUInt32_of_le hpos, Int32.toNatClampNeg, hquot, Int.toNat_natCast]

/-! ## Walks -/

/-- The link of cluster `c` on the disk. -/
def clusterNext (disk : ℕ → BYTE) (lba c : LONG) : LONG := kfs2Next (clusterByte disk lba c)

/-- The cluster that is in the buffer after `t` links from `c` on. A link to a cluster that
`kfs2_read_cluster` refuses leaves the buffer as it is. -/
def kfs2Follow (disk : ℕ → BYTE) (lba clusterN c : LONG) (t : ℕ) : LONG :=
  Links.follow (clusterNext disk lba) (· ≤ clusterN) c t

/-- The buffer, with cluster `c` in front. -/
def kfs2Loaded (disk : ℕ → BYTE) (lba : LONG) (buf : ℕ → BYTE) (c : LONG) : ℕ → BYTE :=
  fun a => if a < 8192 then clusterByte disk lba c a else buf a

/-- The file system is mounted on a working drive, and the buffer, in which `buf` is behind the
first 8192 bytes, holds cluster `c`. -/
structure Kfs2.At (disk : ℕ → BYTE) (lba clusterN : LONG) (buf : ℕ → BYTE) (c : LONG)
    (s : Kfs2) : Prop where
  faithful : s.ide.Faithful
  disk_eq : s.ide.disk = disk
  lba_eq : s.lba = lba
  clusterN_eq : s.clusterN = clusterN
  index : s.clusterIndex = c
  loaded : s.buf = kfs2Loaded disk lba buf c

section Walk

variable {disk : ℕ → BYTE} {lba clusterN : LONG} {buf : ℕ → BYTE} {c : LONG} {s : Kfs2}

/-- The first 8192 bytes of the buffer are those of the cluster. -/
lemma Kfs2.At.cell (h : s.At disk lba clusterN buf c) {a : ℕ} (ha : a < 8192) :
    s.buf a = clusterByte disk lba c a := by
  rw [h.loaded, kfs2Loaded, if_pos ha]

/-- Reading a cluster brings it into the buffer. -/
lemma Kfs2.at_readCluster (hinv : s.Inv disk) (hlba : s.lba ≠ 0) (hc : c ≤ s.clusterN)
    (hne : c ≠ 0xffffffff) : (kfs2ReadCluster s c).At disk s.lba s.clusterN s.buf c where
  faithful := (hinv.readCluster c).faithful
  disk_eq := (hinv.readCluster c).disk_eq
  lba_eq := kfs2ReadCluster_lba s c
  clusterN_eq := kfs2ReadCluster_clusterN s c
  index := ClusterCache.readCluster_clusterIndex hlba hc
  loaded := by
    funext a
    rw [kfs2Loaded]
    split_ifs with ha
    · exact hinv.readCluster_buf hlba hc hne a ha
    · exact ClusterCache.readCluster_behind hinv.faithful c (by omega)

/-- Reading another cluster, if it is not refused. -/
lemma Kfs2.At.readCluster (hlba : lba ≠ 0) (h : s.At disk lba clusterN buf c) (n : LONG) :
    (kfs2ReadCluster s n).At disk lba clusterN buf (if n ≤ clusterN then n else c) := by
  have hs : s.lba ≠ 0 := by
    rw [h.lba_eq]
    exact hlba
  rcases ClusterCache.readCluster_cases s.toClusterCache n with
    ⟨h0 | hlt | hhit, heq⟩ | ⟨-, hle, hne, -⟩
  · exact absurd h0 hs
  · rw [h.clusterN_eq] at hlt
    rw [if_neg (UInt32.not_le.mpr hlt), kfs2ReadCluster, heq]
    exact h
  · obtain rfl : n = c := hhit.trans h.index
    rw [ite_self, kfs2ReadCluster, heq]
    exact h
  · obtain ⟨hf, hd⟩ := ClusterCache.readCluster_ide h.faithful n
    have hbuf : (s.toClusterCache.readCluster n).buf = kfs2Loaded disk lba buf n := by
      funext a
      rw [ClusterCache.readCluster_miss_buf h.faithful hs hle hne, h.disk_eq, h.lba_eq, h.loaded]
      unfold kfs2Loaded
      split_ifs
      · rfl
      · rfl
    have hindex := ClusterCache.readCluster_clusterIndex hs hle
    rw [h.clusterN_eq] at hle
    rw [if_pos hle]
    exact ⟨hf, hd.trans h.disk_eq, (kfs2ReadCluster_lba s n).trans h.lba_eq,
      (kfs2ReadCluster_clusterN s n).trans h.clusterN_eq, hindex, hbuf⟩

/-- The link in the buffer is that of the cluster. -/
lemma Kfs2.At.next (h : s.At disk lba clusterN buf c) :
    kfs2Next s.buf = clusterNext disk lba c :=
  le32_congr fun k hk => h.cell (by omega)

/-- Reading the same cluster again does nothing. -/
lemma kfs2ReadCluster_twice (s : Kfs2) (n : LONG) :
    kfs2ReadCluster (kfs2ReadCluster s n) n = kfs2ReadCluster s n := by
  have htwice : (s.toClusterCache.readCluster n).readCluster n =
      s.toClusterCache.readCluster n := by
    rcases ClusterCache.readCluster_cases s.toClusterCache n with ⟨-, heq⟩ | ⟨hlba, hle, -, heq⟩
    · rw [heq, heq]
    · rw [ClusterCache.readCluster, if_neg (by simpa using hlba)]
      rw [if_neg (by simpa using UInt32.not_lt.mpr hle),
        if_pos (ClusterCache.readCluster_clusterIndex hlba hle).symm]
  rw [kfs2ReadCluster, kfs2ReadCluster]
  dsimp only
  rw [htwice]

/-- **Where a walk ends.** If the first read brings cluster `b` into the buffer, the walk ends with
the cluster that is `t` links behind it, and reading the last cluster again does nothing.

**Proof sketch.** Induction on the number of links; the first of them is that of `b`. -/
lemma kfs2Walk_at (hlba : lba ≠ 0) (t : ℕ) : ∀ (s : Kfs2) (clstr b : LONG),
    (kfs2ReadCluster s clstr).At disk lba clusterN buf b →
      (kfs2Walk s clstr t).1.At disk lba clusterN buf (kfs2Follow disk lba clusterN b t) ∧
      kfs2ReadCluster (kfs2Walk s clstr t).1 (kfs2Walk s clstr t).2 = (kfs2Walk s clstr t).1 := by
  induction t with
  | zero => exact fun s clstr b h => ⟨h, kfs2ReadCluster_twice s clstr⟩
  | succ t ih =>
    intro s clstr b h
    rw [kfs2Walk, h.next, kfs2Follow, Links.follow_succ]
    exact ih _ _ _ (h.readCluster hlba _)

end Walk

/-! ## Bytes -/

/-- The cluster that byte `i + k` is fetched from, when byte `i` was fetched from `c`. -/
def kfs2Reached (disk : ℕ → BYTE) (lba clusterN start i c : LONG) : ℕ → LONG
  | 0 => c
  | k + 1 =>
    let t := kfs2ByteClstr (i + UInt32.ofNat (k + 1))
    if t = 0 then kfs2Reached disk lba clusterN start i c k
    else kfs2Follow disk lba clusterN start t.toNat

/-- Byte `i` of a file, fetched with cluster `c` in the buffer. -/
def kfs2Fetched (disk : ℕ → BYTE) (lba : LONG) (buf : ℕ → BYTE) (stray : Kfs2Below) (i c : LONG) :
    BYTE :=
  if kfs2ByteIndex i < 0 then stray c (kfs2Loaded disk lba buf c) i (kfs2ByteIndex i)
  else clusterByte disk lba c (kfs2ByteIndex i).toNat

/-- The cluster that the first byte is fetched from: the walk starts at the first cluster of the
file, unless the value of the uninitialised variable is the number of links. -/
def kfs2First (disk : ℕ → BYTE) (lba clusterN start clstrN₀ off : LONG) : LONG :=
  kfs2Follow disk lba clusterN (if kfs2ByteClstr off ≠ clstrN₀ then start else 0)
    (kfs2ByteClstr off).toNat

/-- The `n` bytes from `off` on, each from the cluster it is fetched from. -/
def kfs2Bytes (disk : ℕ → BYTE) (lba clusterN : LONG) (buf : ℕ → BYTE) (start clstrN₀ : LONG)
    (stray : Kfs2Below) (off : LONG) (n : ℕ) : List BYTE :=
  (List.range n).map fun k => kfs2Fetched disk lba buf stray (off + UInt32.ofNat k)
    (kfs2Reached disk lba clusterN start off (kfs2First disk lba clusterN start clstrN₀ off) k)

section Read

variable {disk : ℕ → BYTE} {lba clusterN start : LONG} {buf : ℕ → BYTE} {c : LONG}
  {stray : Kfs2Below} {s : Kfs2}

/-- The byte is fetched from the cluster in the buffer. -/
lemma Kfs2.At.bufAt (h : s.At disk lba clusterN buf c) (i : LONG) :
    kfs2BufAt s stray i (kfs2ByteIndex i) = kfs2Fetched disk lba buf stray i c := by
  have hlt := kfs2ByteIndex_lt i
  rw [kfs2BufAt, kfs2Fetched]
  split_ifs
  · rw [h.index, h.loaded]
  · exact h.cell (by omega)

/-- The clusters from the second byte on. -/
lemma kfs2Reached_succ (i : LONG) (k : ℕ) :
    kfs2Reached disk lba clusterN start (i + 1)
        (kfs2Reached disk lba clusterN start i c 1) k =
      kfs2Reached disk lba clusterN start i c (k + 1) := by
  induction k with
  | zero => rfl
  | succ k ih =>
    rw [kfs2Reached, ih, add_one_add_ofNat]
    rfl

/-- The walk for byte `i` when the last one ended with cluster `c`: if the byte is in cluster `0`
of the file, nothing is left to follow, and the walk reads the last cluster once more. Otherwise
it starts over. -/
lemma kfs2Walk_next (hlba : lba ≠ 0) (hstart : start ≤ clusterN) {clstr : LONG}
    (hat : s.At disk lba clusterN buf c) (hagain : kfs2ReadCluster s clstr = s) (i : LONG) :
    let r := if kfs2ByteClstr i ≠ 0 then (start, kfs2ByteClstr i) else (clstr, 0)
    let w := kfs2Walk s r.1 r.2.toNat
    w.1.At disk lba clusterN buf (if kfs2ByteClstr i = 0 then c
      else kfs2Follow disk lba clusterN start (kfs2ByteClstr i).toNat) ∧
    kfs2ReadCluster w.1 w.2 = w.1 := by
  dsimp only
  by_cases ht : kfs2ByteClstr i = 0
  · rw [if_neg (not_not.mpr ht), if_pos ht]
    refine kfs2Walk_at hlba 0 s clstr c ?_
    rw [hagain]
    exact hat
  · rw [if_pos ht, if_neg ht]
    refine kfs2Walk_at hlba _ s start start ?_
    have hread := hat.readCluster hlba start
    rw [if_pos hstart] at hread
    exact hread

/-- The bytes behind a byte that was fetched from cluster `c`.

**Proof sketch.** Induction on the number of bytes, with `kfs2Walk_next` for the first of them. -/
lemma kfs2ReadLoop_eq (hlba : lba ≠ 0) (hstart : start ≤ clusterN) (n : ℕ) :
    ∀ (i clstr c : LONG) (s : Kfs2), s.At disk lba clusterN buf c → kfs2ReadCluster s clstr = s →
      (kfs2ReadLoop start stray n (i + 1) clstr 0 s).2 = (List.range n).map fun k =>
        kfs2Fetched disk lba buf stray (i + UInt32.ofNat (k + 1))
          (kfs2Reached disk lba clusterN start i c (k + 1)) := by
  induction n with
  | zero => exact fun i clstr c s _ _ => rfl
  | succ n ih =>
    intro i clstr c s hat hagain
    rw [kfs2ReadLoop, List.range_succ_eq_map, List.map_cons, List.map_map]
    dsimp only
    -- the walk for the first of the bytes
    obtain ⟨hat', hagain'⟩ := kfs2Walk_next hlba hstart hat hagain (i + 1)
    rw [hat'.bufAt, ih (i + 1) _ _ _ hat' hagain']
    refine List.cons_eq_cons.mpr ⟨rfl, List.map_congr_left fun k _ => ?_⟩
    rw [Function.comp_apply, add_one_add_ofNat]
    exact congrArg _ (kfs2Reached_succ i (k + 1))

/-- The walk for the first byte. -/
lemma kfs2Walk_first (hinv : s.Inv disk) (hlba : s.lba ≠ 0) (hstart : start < s.clusterN)
    (clstrN₀ off : LONG) :
    let r := if kfs2ByteClstr off ≠ clstrN₀ then (start, kfs2ByteClstr off) else (0, clstrN₀)
    let w := kfs2Walk s r.1 r.2.toNat
    w.1.At disk s.lba s.clusterN s.buf (kfs2First disk s.lba s.clusterN start clstrN₀ off) ∧
    kfs2ReadCluster w.1 w.2 = w.1 := by
  dsimp only [kfs2First]
  by_cases ht : kfs2ByteClstr off = clstrN₀
  · rw [if_neg (not_not.mpr ht), if_neg (not_not.mpr ht), ht]
    exact kfs2Walk_at hlba _ s 0 0 (Kfs2.at_readCluster hinv hlba (by simp) (by decide))
  · rw [if_pos ht, if_pos ht]
    exact kfs2Walk_at hlba _ s start start
      (Kfs2.at_readCluster hinv hlba (UInt32.le_of_lt hstart) (by grind))

/-- **The bytes that are read**, from an open file whose first cluster is in range. -/
lemma kfs2ReadByte_eq (hinv : s.Inv disk) (hlba : s.lba ≠ 0) (file : LONG)
    (hopen : (s.handles file.toNat).Open)
    (hstart : (s.handles file.toNat).startclstr < s.clusterN) (clstrN₀ : LONG)
    (stray : Kfs2Below) (n off : LONG) :
    (kfs2ReadByte s clstrN₀ stray file n off).1 =
      UInt32.ofNat ((off + n).toNat - off.toNat) ∧
    (kfs2ReadByte s clstrN₀ stray file n off).2.1 =
      kfs2Bytes disk s.lba s.clusterN s.buf (s.handles file.toNat).startclstr clstrN₀ stray off
        ((off + n).toNat - off.toNat) := by
  have hbytes : ∀ len,
      (kfs2ReadLoop (s.handles file.toNat).startclstr stray len off 0 clstrN₀ s).2 =
      kfs2Bytes disk s.lba s.clusterN s.buf (s.handles file.toNat).startclstr clstrN₀ stray off
        len := by
    intro len
    cases len with
    | zero => rfl
    | succ len =>
      obtain ⟨hat, hagain⟩ := kfs2Walk_first hinv hlba hstart clstrN₀ off
      rw [kfs2ReadLoop, kfs2Bytes, List.range_succ_eq_map, List.map_cons, List.map_map]
      dsimp only
      rw [hat.bufAt, kfs2ReadLoop_eq hlba (UInt32.le_of_lt hstart) len off _ _ _ hat hagain]
      rw [add_ofNat_zero]
      rfl
  rw [kfs2ReadByte]
  dsimp only
  rw [if_neg hopen, hbytes]
  exact ⟨by simp [kfs2Bytes], rfl⟩

end Read

/-! ## The bytes of the file -/

/-- Cluster number `j` of the file that starts at `start`. -/
def fileCluster (disk : ℕ → BYTE) (lba start : LONG) (j : ℕ) : LONG :=
  (clusterNext disk lba)^[j] start

/-- The result `r` of reading `n` bytes from `off` on is right: `n` is returned, all indices are
inside of `kfs2_buf`, and the bytes are those of the data areas of the file's clusters. -/
def ReadsFile (disk : ℕ → BYTE) (lba start n off : LONG) (r : LONG × List BYTE × Kfs2) : Prop :=
  r.1 = n ∧
  (∀ k < n.toNat, 0 ≤ kfs2ByteIndex (off + UInt32.ofNat k) ∧
    kfs2ByteIndex (off + UInt32.ofNat k) < 16384) ∧
  r.2.1 = (List.range n.toNat).map fun k =>
    clusterByte disk lba (fileCluster disk lba start ((off.toNat + k) / 7680))
      (512 + (off.toNat + k) % 7680)

/-- Every byte that is read is at most 512 bytes behind the start of its cluster's data, and it
equals the byte that is as far before the start of the data, in the cluster the walk reaches: that
of the file, or if the uninitialised variable happens to be the number of the first byte's cluster,
the one as many links behind cluster `0` for the first byte and those in cluster `0` of the
file. -/
def Mirrored (disk : ℕ → BYTE) (lba clusterN start clstrN₀ n off : LONG) : Prop :=
  ∀ k < n.toNat, (off.toNat + k) % 7680 ≤ 512 ∧
    clusterByte disk lba
        (if clstrN₀.toNat = off.toNat / 7680 ∧ (k = 0 ∨ off.toNat + k < 7680) then
          kfs2Follow disk lba clusterN 0 ((off.toNat + k) / 7680)
        else fileCluster disk lba start ((off.toNat + k) / 7680))
        (512 - (off.toNat + k) % 7680) =
      clusterByte disk lba (fileCluster disk lba start ((off.toNat + k) / 7680))
        (512 + (off.toNat + k) % 7680)

section File

variable {disk : ℕ → BYTE} {lba clusterN start clstrN₀ off : LONG}

/-- A walk over the clusters of the file. -/
lemma kfs2Follow_eq_fileCluster {m : ℕ}
    (hchain : ∀ j < m, fileCluster disk lba start j < clusterN) {t : ℕ} (ht : t < m) :
    kfs2Follow disk lba clusterN start t = fileCluster disk lba start t :=
  Links.follow_eq_iterate fun j hj => UInt32.le_of_lt (hchain j (by omega))

/-- The cluster that byte `off + k` is fetched from, in a file that is not too large.

**Proof sketch.** Induction on `k`. The walk starts over unless the byte is in cluster `0` of the
file; then all bytes before it are, too. -/
lemma kfs2Reached_of_lt {m : ℕ} (hchain : ∀ j < m, fileCluster disk lba start j < clusterN) (k : ℕ)
    (hm : off.toNat + k < 7680 * m) (hsmall : off.toNat + k < 2 ^ 31) :
    kfs2Reached disk lba clusterN start off (kfs2First disk lba clusterN start clstrN₀ off) k =
      if clstrN₀.toNat = off.toNat / 7680 ∧ (k = 0 ∨ off.toNat + k < 7680) then
        kfs2Follow disk lba clusterN 0 ((off.toNat + k) / 7680)
      else fileCluster disk lba start ((off.toNat + k) / 7680) := by
  have hwalk : ∀ {t}, t < m → kfs2Follow disk lba clusterN start t = fileCluster disk lba start t :=
    fun ht => kfs2Follow_eq_fileCluster hchain ht
  induction k with
  | zero =>
    have ht := kfs2ByteClstr_of_lt (i := off) (by omega)
    have heq : kfs2ByteClstr off = clstrN₀ ↔ clstrN₀.toNat = off.toNat / 7680 := by
      rw [← UInt32.toNat_inj, ht, eq_comm]
    simp only [kfs2Reached, kfs2First, ht, Nat.add_zero, true_or, and_true, ne_eq, heq]
    by_cases h0 : clstrN₀.toNat = off.toNat / 7680
    · simp [h0]
    · simp only [h0, not_false_eq_true, if_true, if_false]
      exact hwalk (by omega)
  | succ k ih =>
    have hpos : (off + UInt32.ofNat (k + 1)).toNat = off.toNat + (k + 1) :=
      toNat_add_ofNat (by omega)
    have ht := kfs2ByteClstr_of_lt (i := off + UInt32.ofNat (k + 1)) (by omega)
    rw [hpos] at ht
    rw [kfs2Reached]
    by_cases hzero : off.toNat + (k + 1) < 7680
    · have hz : kfs2ByteClstr (off + UInt32.ofNat (k + 1)) = 0 := by
        rw [← UInt32.toNat_inj, ht, UInt32.toNat_zero, Nat.div_eq_of_lt hzero]
      have hquot : (off.toNat + k) / 7680 = (off.toNat + (k + 1)) / 7680 := by omega
      rw [if_pos hz, ih (by omega) (by omega), hquot]
      refine if_congr (and_congr_right fun _ => ?_) rfl rfl
      omega
    · have hnz : kfs2ByteClstr (off + UInt32.ofNat (k + 1)) ≠ 0 := by
        rw [Ne, ← UInt32.toNat_inj, ht, UInt32.toNat_zero]
        omega
      rw [if_neg hnz, ht, if_neg (by omega)]
      exact hwalk (by omega)

/-- The index of byte `k` of a read below `2 ^ 31`. -/
lemma kfs2ByteIndex_add {off : LONG} {k : ℕ} (h : off.toNat + k < 2 ^ 31) :
    kfs2ByteIndex (off + UInt32.ofNat k) = 512 - ((off.toNat + k) % 7680 : ℕ) := by
  have hpos : (off + UInt32.ofNat k).toNat = off.toNat + k := toNat_add_ofNat (by omega)
  rw [kfs2ByteIndex_of_lt (by omega), hpos]

/-- The byte `k` that is fetched, if its index is not below the buffer. -/
lemma kfs2Fetched_add (disk : ℕ → BYTE) (lba : LONG) (buf : ℕ → BYTE) (stray : Kfs2Below)
    {off : LONG} {k : ℕ} (h : off.toNat + k < 2 ^ 31) (hle : (off.toNat + k) % 7680 ≤ 512)
    (c : LONG) :
    kfs2Fetched disk lba buf stray (off + UInt32.ofNat k) c =
      clusterByte disk lba c (512 - (off.toNat + k) % 7680) := by
  rw [kfs2Fetched, kfs2ByteIndex_add h, if_neg (by omega)]
  congr 1
  omega

/-- **When a read returns the bytes of the file.** In every state that is reached from boot on a
working drive, with a file system mounted: for every open file whose first `m` clusters are in
range, and every read inside of these clusters and below `2 ^ 31`, the call returns the bytes of the
file and stays inside of the buffer iff every byte equals the one mirrored at the start of the data
(`Korolev.Mirrored`). -/
theorem kfs2_read_byte_iff (ide : Ide) (hide : ide.Faithful) (ops : List Kfs2Op) (clstrN₀ : LONG)
    (stray : Kfs2Below) (file n off : LONG) (m : ℕ) :
    let s := Run.run Kfs2.step (Kfs2.boot ide) ops
    let start := (s.handles file.toNat).startclstr
    s.lba ≠ 0 → file.toNat < KFS2_MAX_FILES → (s.handles file.toNat).Open →
    (∀ j < m, fileCluster ide.disk s.lba start j < s.clusterN) →
    off.toNat + n.toNat ≤ 7680 * m → off.toNat + n.toNat < 2 ^ 31 →
    (ReadsFile ide.disk s.lba start n off (kfs2ReadByte s clstrN₀ stray file n off) ↔
      Mirrored ide.disk s.lba s.clusterN start clstrN₀ n off) := by
  intro s start hlba hfile hopen hchain hm hsmall
  obtain ⟨hinv, hinside⟩ : s.Inv ide.disk ∧ s.StartsInside := Kfs2.reachable hide ops
  obtain ⟨hcount, hbytes⟩ := kfs2ReadByte_eq hinv hlba file hopen
    (hinside hlba _ hfile hopen) clstrN₀ stray n off
  have hlen : (off + n).toNat - off.toNat = n.toNat := by
    rw [UInt32.toNat_add]
    omega
  rw [hlen] at hcount hbytes
  have hindex := fun k (hk : k < n.toNat) =>
    kfs2ByteIndex_add (show off.toNat + k < 2 ^ 31 by omega)
  have hfetch := fun k (hk : k < n.toNat) =>
    kfs2Fetched_add ide.disk s.lba s.buf stray (show off.toNat + k < 2 ^ 31 by omega)
  have hread : (kfs2ReadByte s clstrN₀ stray file n off).1 = n := by
    rw [hcount, UInt32.ofNat_toNat]
  rw [ReadsFile, hbytes, kfs2Bytes, List.map_inj_left]
  constructor
  · rintro ⟨-, hbounds, hsame⟩ k hk
    have hle : (off.toNat + k) % 7680 ≤ 512 := by
      have hlow := (hbounds k hk).1
      rw [hindex k hk] at hlow
      omega
    have hbyte := hsame k (List.mem_range.mpr hk)
    rw [hfetch k hk hle, kfs2Reached_of_lt hchain k (by omega) (by omega)] at hbyte
    exact ⟨hle, hbyte⟩
  · intro hmirror
    refine ⟨hread, fun k hk => ?_, fun k hk => ?_⟩
    · have hle := (hmirror k hk).1
      rw [hindex k hk]
      omega
    · have hk := List.mem_range.mp hk
      obtain ⟨hle, hbyte⟩ := hmirror k hk
      rw [hfetch k hk hle, kfs2Reached_of_lt hchain k (by omega) (by omega)]
      exact hbyte

end File

/-- A drive with a KFS2 file system at sector `1`, whose two clusters are those of a file `i`. The
data of the second one starts with bytes that are mirrored. -/
def kfs2MirroredIde : Ide where
  disk := fun a =>
    if 9216 ≤ a then (if 9726 ≤ a then ofList [0x11, 0x22, 0x33, 0x22, 0x11] (a - 9726) else 0)
    else if a = 1300 then 1
    else if 1024 ≤ a then ofList [1, 0, 0, 0, 0, 0, 0, 0, 0x69] (a - 1024)
    else if 512 ≤ a then ofList [0x27, 0x96, 0x01, 0x37, 2] (a - 512)
    else 0
  fault := fun _ => false
  calls := 0

/-- The globals of that drive after the mount and the open: the file is in slot `0`. -/
lemma kfs2Mirrored_opened {s : Kfs2}
    (hs : s = Run.run Kfs2.step (Kfs2.boot kfs2MirroredIde) [.init 1, .openFile (ofList [0x69])]) :
    s.lba = 1 ∧ s.clusterN = 2 ∧ s.handles 0 = ⟨1, 0⟩ := by
  rw [hs]
  decide +kernel

/-- Three bytes of the second cluster of that file are read. -/
theorem kfs2_read_byte_iff_mirrored :
    let s := Run.run Kfs2.step (Kfs2.boot kfs2MirroredIde) [.init 1, .openFile (ofList [0x69])]
    ReadsFile kfs2MirroredIde.disk s.lba (s.handles 0).startclstr 3 7680
      (kfs2ReadByte s 5 (fun _ _ _ _ => 0) 0 3 7680) := by
  have hiff := kfs2_read_byte_iff kfs2MirroredIde (fun _ => rfl)
    [.init 1, .openFile (ofList [0x69])] 5 (fun _ _ _ _ => 0) 0 3 7680 2
  generalize hs : Run.run Kfs2.step (Kfs2.boot kfs2MirroredIde)
    [.init 1, .openFile (ofList [0x69])] = s at hiff ⊢
  obtain ⟨hlba, hn, hslot⟩ := kfs2Mirrored_opened hs.symm
  simp only [UInt32.toNat_zero, hlba, hn, hslot] at hiff ⊢
  refine (hiff (by decide) (by decide) (by decide) (by decide) (by decide) (by decide)).mpr ?_
  unfold Mirrored
  decide

/-- Byte 513 of a file in one cluster is fetched from below the buffer. -/
theorem kfs2_read_byte_below_buffer :
    let s := Run.run Kfs2.step (Kfs2.boot kfs2OneFileIde) [.init 1, .openFile (ofList [0x69])]
    s.lba ≠ 0 ∧ (s.handles 0).Open ∧
    (∀ j < 1, fileCluster kfs2OneFileIde.disk s.lba (s.handles 0).startclstr j < s.clusterN) ∧
    ¬ReadsFile kfs2OneFileIde.disk s.lba (s.handles 0).startclstr 1 513
      (kfs2ReadByte s 5 (fun _ _ _ _ => 0) 0 1 513) := by
  generalize hs : Run.run Kfs2.step (Kfs2.boot kfs2OneFileIde)
    [.init 1, .openFile (ofList [0x69])] = s
  obtain ⟨hlba, hn, hslot⟩ := kfs2OneFile_opened hs.symm
  simp only [hlba, hn, hslot]
  refine ⟨by decide, by decide, by decide, fun h => ?_⟩
  exact absurd (h.2.1 0 (by decide)).1 (by decide)

end Korolev
