import Korolev.Fs.Kssfs
import Korolev.Tools.Host

set_option relaxedAutoImplicit false
set_option autoImplicit false

/-!
# Mounting a KSSFS image on the host

`tools/kssfs_fuse.c` is a FUSE file system over a KSSFS image. Every operation works through one
global buffer of a cluster: a cluster is read into it, looked at, perhaps changed and written
back. Names are found by reading the clusters one after the other.

A handle is the number of a cluster. It is stored in 64 bits and used in 32, like the offset of
the cluster in the image.

## Main definitions

* `Korolev.Fuse.Mount` — the globals.
* `Korolev.Fuse.scan` — the loop over the clusters that all lookups share.
* `Korolev.Fuse.kssfsGetattr`, `Korolev.Fuse.kssfsReaddir`, `Korolev.Fuse.kssfsRead`,
  `Korolev.Fuse.kssfsWrite`, `Korolev.Fuse.kssfsUnlink`, `Korolev.Fuse.kssfsCreate`,
  `Korolev.Fuse.kssfsOpen`, `Korolev.Fuse.kssfsRename` — the file system operations.
* `Korolev.Fuse.Complete` — the image has all its clusters.
* `Korolev.Fuse.SameImage` — the image did not change.
* `Korolev.Fuse.clusterOffset`, `Korolev.Fuse.kernelOffset` — where the tool and the kernel look
  for a cluster.
* `Korolev.Fuse.Apart` — clusters that do not overlap.

## Main results

* `Korolev.Fuse.scan_cases` — what a lookup finds.
* `Korolev.Fuse.kssfsWriteCluster_cluster` — the clusters after one was written.
* `Korolev.Fuse.clusterOffset_eq_kernelOffset_iff` — when the tool and the kernel agree on where
  the clusters are.
-/

namespace Korolev.Fuse

open Bytes

/-! ## The functions -/

/-- The globals of `tools/kssfs_fuse.c`. `buf` is the memory from `buf` on; the array is its first
8192 bytes. -/
structure Mount where
  stream : Host.Stream
  buf : ℕ → BYTE
  clusterN : LONG

/-- What the operations ask the host: the user, the group and the time. -/
structure Env where
  uid : LONG
  gid : LONG
  now : ℤ

/-- `struct stat`, as far as it is filled in. -/
structure Stat where
  mode : LONG
  uid : LONG
  gid : LONG
  nlink : ℕ
  size : ℕ
  mtime : ℤ
  atime : ℤ
  ctime : ℤ

/-- `chdr->uid` -/
def kssfsUid (m : ℕ → BYTE) : LONG := le32 m 262

/-- `chdr->gid` -/
def kssfsGid (m : ℕ → BYTE) : LONG := le32 m 266

/-- `chdr->perm` -/
def kssfsPerm (m : ℕ → BYTE) : LONG := le32 m 270

/-- `kssfs_read_cluster(i)`. The offset is computed in 32 bits. -/
def kssfsReadCluster (s : Mount) (i : LONG) : Mount :=
  let stream := Host.fseek s.stream (512 + i * 8192).toNat
  let r := Host.fread stream s.buf 8192
  { s with stream := r.1, buf := r.2 }

/-- `kssfs_write_cluster(i, buf)` -/
def kssfsWriteCluster (s : Mount) (i : LONG) (buf : ℕ → BYTE) : Mount :=
  let stream := Host.fseek s.stream (512 + i * 8192).toNat
  { s with stream := Host.fwrite stream buf 8192 }

/-- `kssfs_checkdisk()` -/
def kssfsCheckdisk (s : Mount) : ℤ × Mount :=
  let stream := Host.fseek s.stream 0
  let r := Host.fread stream s.buf 512
  let s := { s with stream := r.1, buf := r.2 }
  if le32 s.buf 0 ≠ KSSFS_SIGNATURE then (1, s)
  else (0, { s with clusterN := le32 s.buf 4 })

/-- `for(int i = 0; i < cluster_n; i++)` with a body that reads cluster `i` and returns if the
buffer has the property `p`: the first such cluster, with `n` clusters left from `i` on. -/
def scan (p : (ℕ → BYTE) → Bool) : (n : ℕ) → (i : LONG) → Mount → Option LONG × Mount
  | 0, _, s => (none, s)
  | n + 1, i, s =>
    let s := kssfsReadCluster s i
    if p s.buf then (some i, s) else scan p n (i + 1) s

/-- `strncmp(name, chdr->filename, 256) == 0` -/
def nameIs (name : ℕ → BYTE) (buf : ℕ → BYTE) : Bool :=
  Host.strncmp name (kssfsFilename buf) 256 = 0

/-- `path + 1` -/
def tail (path : ℕ → BYTE) : ℕ → BYTE := fun k => path (k + 1)

/-- `strcmp(path, "/") == 0` -/
def isRoot (path : ℕ → BYTE) : Bool := path 0 = 47 && path 1 = 0

/-- `kssfs_getattr(path, stbuf)`. The lookup does not test the type of the cluster. -/
def kssfsGetattr (e : Env) (s : Mount) (path : ℕ → BYTE) : ℤ × Stat × Mount :=
  let stbuf : Stat := ⟨0, 0, 0, 0, 0, 0, 0, 0⟩
  if isRoot path then (0, { stbuf with mode := 0o40755, uid := e.uid, gid := e.gid, nlink := 2 }, s)
  else
    match scan (nameIs (tail path)) s.clusterN.toNat 0 s with
    | (some _, s) =>
      (0, { stbuf with
        mode := 0o100755, uid := kssfsUid s.buf, gid := kssfsGid s.buf
        size := (kssfsLen s.buf).toNat, mtime := e.now, atime := e.now, ctime := e.now }, s)
    | (none, s) => (-ENOENT.toNat, stbuf, s)

/-- The loop of `kssfs_readdir`: the names of the clusters in use, with `n` clusters left. -/
def readdirLoop : (n : ℕ) → (i : LONG) → Mount → List (ℕ → BYTE) × Mount
  | 0, _, s => ([], s)
  | n + 1, i, s =>
    let s := kssfsReadCluster s i
    let r := readdirLoop n (i + 1) s
    if kssfsType s.buf ≠ 0 then (kssfsFilename s.buf :: r.1, r.2) else r

/-- `kssfs_readdir(path, …)`: the result, and the names given to `filler`. -/
def kssfsReaddir (s : Mount) (path : ℕ → BYTE) : ℤ × List (ℕ → BYTE) × Mount :=
  if !isRoot path then (-ENOENT.toNat, [], s)
  else
    let r := readdirLoop s.clusterN.toNat 0 s
    (0, ofList [46] :: ofList [46, 46] :: r.1, r.2)

/-- `readsiz` and `writesiz`: the size of a transfer, cut at the end of the cluster. The sum is
taken in 64 bits. -/
def transferSize (size offset : QWORD) : LONG :=
  if 7680 < offset + size then (size - (offset + size - 7680)).toUInt32 else size.toUInt32

/-- `kssfs_read(path, buf, size, offset, fi)`: the result, the memory at `buf`, and the globals.
`size` bytes are copied, whatever is returned. -/
def kssfsRead (s : Mount) (fh : QWORD) (dest : ℕ → BYTE) (size offset : QWORD) :
    ℤ × (ℕ → BYTE) × Mount :=
  let s := kssfsReadCluster s fh.toUInt32
  let dest := blit dest 0 size.toNat fun k => s.buf (512 + offset.toNat + k)
  ((transferSize size offset).toInt32.toInt, dest, s)

/-- `kssfs_write(path, fbuf, size, offset, fi)` -/
def kssfsWrite (s : Mount) (fh : QWORD) (fbuf : ℕ → BYTE) (size offset : QWORD) : ℤ × Mount :=
  let s := kssfsReadCluster s fh.toUInt32
  let writesiz := transferSize size offset
  let buf := blit s.buf (512 + offset.toNat) size.toNat fbuf
  let buf := blit buf 4 2 (bytes16 (offset + writesiz.toUInt64).toUInt16)
  let s := kssfsWriteCluster { s with buf := buf } fh.toUInt32 buf
  (writesiz.toInt32.toInt, s)

/-- `kssfs_unlink(path)`. The whole path is compared, with its leading slash. -/
def kssfsUnlink (s : Mount) (path : ℕ → BYTE) : ℤ × Mount :=
  let p := fun buf => decide (kssfsType buf ≠ KSSFS_CLSTR_FREE) && nameIs path buf
  match scan p s.clusterN.toNat 0 s with
  | (some i, s) =>
    let buf := blit s.buf 0 8192 fun _ => 0
    (0, kssfsWriteCluster { s with buf := buf } i buf)
  | (none, s) => (-ENOENT.toNat, s)

/-- `kssfs_create(path, mode, fi)`: the result, `fi->fh`, and the globals. -/
def kssfsCreate (s : Mount) (path : ℕ → BYTE) (fh : QWORD) : ℤ × QWORD × Mount :=
  match scan (fun buf => decide (kssfsType buf = KSSFS_CLSTR_FREE)) s.clusterN.toNat 0 s with
  | (some i, s) =>
    let buf := blit s.buf 0 4 (bytes32 KSSFS_CLSTR_COM)
    let buf := Host.strncpy buf 6 (tail path) 256
    (0, i.toUInt64, kssfsWriteCluster { s with buf := buf } i buf)
  | (none, s) => (-ENOSPC.toNat, fh, s)

/-- The test of `kssfs_open` and `kssfs_rename`: a cluster in use with the name. -/
def inUseAs (name : ℕ → BYTE) (buf : ℕ → BYTE) : Bool :=
  decide (kssfsType buf ≠ 0) && nameIs name buf

/-- `kssfs_open(path, fi)` -/
def kssfsOpen (s : Mount) (path : ℕ → BYTE) (fh : QWORD) : ℤ × QWORD × Mount :=
  match scan (inUseAs (tail path)) s.clusterN.toNat 0 s with
  | (some i, s) => (0, i.toUInt64, s)
  | (none, s) => kssfsCreate s path fh

/-- `kssfs_rename(path, path')`. The changed header is not written back. -/
def kssfsRename (s : Mount) (path path' : ℕ → BYTE) : ℤ × Mount :=
  match scan (inUseAs (tail path)) s.clusterN.toNat 0 s with
  | (some _, s) => (0, { s with buf := Host.strncpy s.buf 6 (tail path') 256 })
  | (none, s) => (-ENOENT.toNat, s)

/-! ## Clusters of the image -/

/-- Cluster `c` of an image. -/
def cluster (f : Host.File) (c : ℕ) : ℕ → BYTE := fun a => f.byte (512 + 8192 * c + a)

/-- A complete image: all clusters of the header are there, and their offsets fit in 32 bits. -/
structure Complete (s : Mount) : Prop where
  clusterN_le : s.clusterN.toNat ≤ 2 ^ 19
  size : 512 + 8192 * s.clusterN.toNat ≤ s.stream.file.size

/-- Two states with the same image, which may differ in the buffer and the position. -/
structure SameImage (s s' : Mount) : Prop where
  file_eq : s'.stream.file = s.stream.file
  clusterN_eq : s'.clusterN = s.clusterN

lemma SameImage.rfl {s : Mount} : SameImage s s := ⟨Eq.refl _, Eq.refl _⟩

lemma SameImage.trans {s s' s'' : Mount} (h : SameImage s s') (h' : SameImage s' s'') :
    SameImage s s'' :=
  ⟨h'.file_eq.trans h.file_eq, h'.clusterN_eq.trans h.clusterN_eq⟩

/-- Completeness is about the image. -/
lemma Complete.of_same {s s' : Mount} (h : Complete s) (hsame : SameImage s s') :
    Complete s' := by
  constructor
  · rw [hsame.clusterN_eq]
    exact h.clusterN_le
  · rw [hsame.clusterN_eq, hsame.file_eq]
    exact h.size

lemma Complete.withBuf {s : Mount} (h : Complete s) (buf : ℕ → BYTE) :
    Complete { s with buf := buf } := ⟨h.clusterN_le, h.size⟩

/-- The offset of a cluster, whose number counts modulo `2 ^ 19`. -/
lemma offset_toNat (i : LONG) : (512 + i * 8192).toNat = 512 + 8192 * (i.toNat % 2 ^ 19) := by
  have hi := i.toNat_lt
  simp only [UInt32.toNat_add, UInt32.toNat_mul, UInt32.toNat_ofNat]
  omega

/-- Reading a cluster leaves the image alone. -/
lemma kssfsReadCluster_same (s : Mount) (i : LONG) : SameImage s (kssfsReadCluster s i) :=
  ⟨rfl, rfl⟩

/-- After reading a cluster of a complete image, the buffer has it. -/
lemma kssfsReadCluster_buf {s : Mount} (h : Complete s) {i : LONG}
    (hi : i.toNat % 2 ^ 19 < s.clusterN.toNat) {a : ℕ} (ha : a < 8192) :
    (kssfsReadCluster s i).buf a = cluster s.stream.file (i.toNat % 2 ^ 19) a := by
  have hsize := h.size
  simp only [kssfsReadCluster, Host.fread, Host.fseek]
  rw [offset_toNat, blit_of_mem (by omega) (by omega), Nat.sub_zero]
  rfl

/-- **The clusters of a complete image after one was written.** The number of the cluster
written counts modulo `2 ^ 19`; if it is behind the image, none changes. -/
lemma kssfsWriteCluster_cluster {s : Mount} (h : Complete s) (i : LONG) (buf : ℕ → BYTE) {c a : ℕ}
    (hc : c < s.clusterN.toNat) (ha : a < 8192) :
    cluster (kssfsWriteCluster s i buf).stream.file c a =
      if c = i.toNat % 2 ^ 19 then buf a else cluster s.stream.file c a := by
  have hsize := h.size
  simp only [kssfsWriteCluster, Host.fwrite, Host.fseek, cluster]
  rw [Host.File.write_byte (by omega), offset_toNat]
  by_cases heq : c = i.toNat % 2 ^ 19
  · rw [if_pos (by omega), if_pos heq]
    congr 1
    omega
  · rw [if_neg (by omega), if_neg heq]

/-- Writing a cluster keeps an image complete. -/
lemma kssfsWriteCluster_complete {s : Mount} (h : Complete s) (i : LONG) (buf : ℕ → BYTE) :
    Complete (kssfsWriteCluster s i buf) :=
  ⟨h.clusterN_le, h.size.trans (le_max_left _ _)⟩

/-- An image of two free clusters. -/
def freeImage : Mount := ⟨⟨⟨512 + 8192 * 2, fun _ => 0⟩, 0⟩, fun _ => 0, 2⟩

lemma freeImage_complete : Complete freeImage := ⟨by decide, by decide⟩

/-- An image of one cluster, which holds an empty file named `a`. -/
def emptyFileImage : Mount :=
  ⟨⟨⟨512 + 8192, fun k => if k = 512 then 1 else if k = 518 then 97 else 0⟩, 0⟩, fun _ => 0, 1⟩

lemma emptyFileImage_complete : Complete emptyFileImage := ⟨by decide, by decide⟩

/-! ## Lookups -/

/-- A property of clusters: it looks at the 8192 bytes of the buffer only. -/
def OfCluster (p : (ℕ → BYTE) → Bool) : Prop := ∀ m m', (∀ a < 8192, m a = m' a) → p m = p m'

lemma kssfsType_congr {m m' : ℕ → BYTE} (h : ∀ a < 8192, m a = m' a) :
    kssfsType m = kssfsType m' := le32_congr fun k hk => h (0 + k) (by omega)

/-- A cleared cluster is free. -/
lemma kssfsType_of_cleared {m : ℕ → BYTE} (h : ∀ a < 8192, m a = 0) :
    kssfsType m = KSSFS_CLSTR_FREE := by
  have hzero : kssfsType m = kssfsType fun _ => 0 := kssfsType_congr h
  rw [hzero]
  rfl

lemma nameIs_iff {name m : ℕ → BYTE} :
    nameIs name m = true ↔ CStr.EqUpTo 256 name (kssfsFilename m) := by
  rw [nameIs, decide_eq_true_iff, Host.strncmp_eq_zero_iff]

lemma nameIs_ofCluster (name : ℕ → BYTE) : OfCluster (nameIs name) := by
  intro m m' h
  have hname : ∀ k < 256, kssfsFilename m k = kssfsFilename m' k := fun k hk => h (6 + k) (by omega)
  rw [Bool.eq_iff_iff, nameIs_iff, nameIs_iff]
  exact CStr.eqUpTo_congr_right hname

lemma inUseAs_iff {name m : ℕ → BYTE} : inUseAs name m = true ↔
    kssfsType m ≠ 0 ∧ CStr.EqUpTo 256 name (kssfsFilename m) := by
  rw [inUseAs, Bool.and_eq_true, decide_eq_true_iff, nameIs_iff]

lemma inUseAs_ofCluster (name : ℕ → BYTE) : OfCluster (inUseAs name) := by
  intro m m' h
  rw [inUseAs, inUseAs, kssfsType_congr h, nameIs_ofCluster name m m' h]

/-- The lookup from cluster `i` on, for the induction in `scan_cases`.

**Proof sketch.** Induction on the number of clusters left. -/
lemma scan_spec {p : (ℕ → BYTE) → Bool} (hp : OfCluster p) (n : ℕ) : ∀ (i : ℕ) (s : Mount),
    Complete s → i + n = s.clusterN.toNat →
      (∃ s', scan p n (UInt32.ofNat i) s = (none, s') ∧ SameImage s s' ∧
        ∀ c, i ≤ c → c < s.clusterN.toNat → p (cluster s.stream.file c) = false) ∨
      ∃ j s', scan p n (UInt32.ofNat i) s = (some (UInt32.ofNat j), s') ∧ SameImage s s' ∧
        j < s.clusterN.toNat ∧ p (cluster s.stream.file j) = true ∧
        (∀ c, i ≤ c → c < j → p (cluster s.stream.file c) = false) ∧
        ∀ a < 8192, s'.buf a = cluster s.stream.file j a := by
  induction n with
  | zero =>
    intro i s _ hin
    exact .inl ⟨s, rfl, SameImage.rfl, fun c hc hlt => by omega⟩
  | succ n ih =>
    intro i s hs hin
    have hN := hs.clusterN_le
    have hval : (UInt32.ofNat i).toNat = i := toNat_ofNat_of_lt (by omega)
    have hsame := kssfsReadCluster_same s (UInt32.ofNat i)
    have hbuf : ∀ a < 8192, (kssfsReadCluster s (UInt32.ofNat i)).buf a =
        cluster s.stream.file i a := by
      intro a ha
      have h := kssfsReadCluster_buf hs (show (UInt32.ofNat i).toNat % 2 ^ 19 < _ by omega) ha
      rwa [hval, Nat.mod_eq_of_lt (by omega)] at h
    have htest : p (kssfsReadCluster s (UInt32.ofNat i)).buf = p (cluster s.stream.file i) :=
      hp _ _ hbuf
    rw [scan, ofNat_add_one, htest]
    cases hpi : p (cluster s.stream.file i) with
    | true =>
      exact .inr ⟨i, _, rfl, hsame, by omega, hpi, fun c hc hlt => by omega, hbuf⟩
    | false =>
      have hskip : ∀ {m : ℕ}, (∀ c, i + 1 ≤ c → c < m → p (cluster s.stream.file c) = false) →
          ∀ c, i ≤ c → c < m → p (cluster s.stream.file c) = false := by
        intro m h c hc hlt
        obtain rfl | hc : i = c ∨ i + 1 ≤ c := by omega
        · exact hpi
        · exact h c hc hlt
      obtain ⟨s', heq, hsame', hall⟩ | ⟨j, s', heq, hsame', hj, hpj, hbefore, hbufj⟩ :=
        ih (i + 1) (kssfsReadCluster s (UInt32.ofNat i)) (hs.of_same hsame)
          (by rw [hsame.clusterN_eq]; omega)
      · exact .inl ⟨s', heq, hsame.trans hsame', hskip hall⟩
      · exact .inr ⟨j, s', heq, hsame.trans hsame', hj, hpj, hskip hbefore, hbufj⟩

/-- **What a lookup finds**: no cluster has the property; or the first that has it, which is then
in the buffer. The image is only read. -/
lemma scan_cases {p : (ℕ → BYTE) → Bool} (hp : OfCluster p) {s : Mount} (hs : Complete s) :
    (∃ s', scan p s.clusterN.toNat 0 s = (none, s') ∧ SameImage s s' ∧
      ∀ c < s.clusterN.toNat, p (cluster s.stream.file c) = false) ∨
    ∃ j s', scan p s.clusterN.toNat 0 s = (some (UInt32.ofNat j), s') ∧ SameImage s s' ∧
      j < s.clusterN.toNat ∧ p (cluster s.stream.file j) = true ∧
      (∀ c < j, p (cluster s.stream.file c) = false) ∧
      ∀ a < 8192, s'.buf a = cluster s.stream.file j a := by
  obtain ⟨s', heq, hsame, hall⟩ | ⟨j, s', heq, hsame, hj, hpj, hbefore, hbuf⟩ :=
    scan_spec hp s.clusterN.toNat 0 s hs (Nat.zero_add _)
  · exact .inl ⟨s', heq, hsame, fun c hc => hall c (Nat.zero_le c) hc⟩
  · exact .inr ⟨j, s', heq, hsame, hj, hpj, fun c hc => hbefore c (Nat.zero_le c) hc, hbuf⟩

/-! ## Writing into a cluster -/

/-- A transfer inside of the cluster is not cut. -/
lemma transferSize_of_le {size offset : QWORD} (h : offset.toNat + size.toNat ≤ 7680) :
    (transferSize size offset).toInt32.toInt = size.toNat := by
  have hsum : (offset + size).toNat = offset.toNat + size.toNat := by
    rw [UInt64.toNat_add, Nat.mod_eq_of_lt (by omega)]
  have hin : ¬7680 < offset + size := by
    rw [UInt64.lt_iff_toNat_lt, hsum]
    simp only [UInt64.toNat_ofNat]
    omega
  have hval : size.toUInt32.toNat = size.toNat := by
    rw [UInt64.toNat_toUInt32, Nat.mod_eq_of_lt (by omega)]
  rw [transferSize, if_neg hin]
  show size.toUInt32.toBitVec.toInt = _
  rw [BitVec.toInt_eq_toNat_of_lt (by rw [UInt32.toNat_toBitVec, hval]; omega),
    UInt32.toNat_toBitVec, hval]

lemma kssfsWrite_clusterN (s : Mount) (fh : QWORD) (fbuf : ℕ → BYTE) (size offset : QWORD) :
    (kssfsWrite s fh fbuf size offset).2.clusterN = s.clusterN := rfl

/-- **The clusters after a write.** The cluster of the handle gets the data and a new length. -/
lemma kssfsWrite_cluster {s : Mount} (h : Complete s) (fh : QWORD) (fbuf : ℕ → BYTE)
    (size offset : QWORD) {c a : ℕ} (hc : c < s.clusterN.toNat) (ha : a < 8192) :
    cluster (kssfsWrite s fh fbuf size offset).2.stream.file c a =
      if c = fh.toUInt32.toNat % 2 ^ 19 then
        blit (blit (cluster s.stream.file c) (512 + offset.toNat) size.toNat fbuf) 4 2
          (bytes16 (offset + (transferSize size offset).toUInt64).toUInt16) a
      else cluster s.stream.file c a := by
  have hread : Complete (kssfsReadCluster s fh.toUInt32) := h.of_same (kssfsReadCluster_same s _)
  simp only [kssfsWrite]
  rw [kssfsWriteCluster_cluster (hread.withBuf _) _ _ hc ha]
  by_cases heq : c = fh.toUInt32.toNat % 2 ^ 19
  · have hbuf : (kssfsReadCluster s fh.toUInt32).buf a = cluster s.stream.file c a := by
      rw [kssfsReadCluster_buf h (by omega) ha, ← heq]
    rw [if_pos heq, if_pos heq]
    unfold blit
    rw [hbuf]
  · rw [if_neg heq, if_neg heq]
    rfl

/-- A write leaves the headers of all clusters alone but for the length, which is in bytes 4
and 5. -/
lemma kssfsWrite_header {s : Mount} (h : Complete s) (fh : QWORD) (fbuf : ℕ → BYTE)
    (size offset : QWORD) {c a : ℕ} (hc : c < s.clusterN.toNat) (ha : a < 512)
    (hlen : a < 4 ∨ 6 ≤ a) :
    cluster (kssfsWrite s fh fbuf size offset).2.stream.file c a = cluster s.stream.file c a := by
  rw [kssfsWrite_cluster h fh fbuf size offset hc (by omega)]
  split_ifs
  · rw [blit_of_not_mem (by omega), blit_of_not_mem (by omega)]
  · rfl

/-- A write keeps an image complete. -/
lemma kssfsWrite_complete {s : Mount} (h : Complete s) (fh : QWORD) (fbuf : ℕ → BYTE)
    (size offset : QWORD) : Complete (kssfsWrite s fh fbuf size offset).2 := by
  have hread : Complete (kssfsReadCluster s fh.toUInt32) := h.of_same (kssfsReadCluster_same s _)
  exact kssfsWriteCluster_complete (hread.withBuf _) _ _

/-! ## Queries -/

/-- An attribute query leaves the image alone, and fails only if no cluster has the name. -/
lemma kssfsGetattr_spec (e : Env) {s : Mount} (h : Complete s) (path : ℕ → BYTE) :
    SameImage s (kssfsGetattr e s path).2.2 ∧
    ((kssfsGetattr e s path).1 = -ENOENT.toNat →
      ∀ c < s.clusterN.toNat, nameIs (tail path) (cluster s.stream.file c) = false) := by
  have hneg : (0 : ℤ) ≠ -ENOENT.toNat := by decide
  unfold kssfsGetattr
  dsimp only
  split_ifs
  · exact ⟨SameImage.rfl, fun hres => absurd hres hneg⟩
  · obtain ⟨s', heq, hsame, hall⟩ | ⟨j, s', heq, hsame, -⟩ :=
      scan_cases (nameIs_ofCluster (tail path)) h
    · rw [heq]
      exact ⟨hsame, fun _ => hall⟩
    · rw [heq]
      exact ⟨hsame, fun hres => absurd hres hneg⟩

/-- Listing the directory leaves the image alone. -/
lemma readdirLoop_same (n : ℕ) : ∀ (i : LONG) (s : Mount),
    SameImage s (readdirLoop n i s).2 := by
  induction n with
  | zero => exact fun i s => SameImage.rfl
  | succ n ih =>
    intro i s
    have hsame := (kssfsReadCluster_same s i).trans (ih (i + 1) (kssfsReadCluster s i))
    rw [readdirLoop]
    split_ifs
    · exact hsame
    · exact hsame

lemma kssfsReaddir_same (s : Mount) (path : ℕ → BYTE) :
    SameImage s (kssfsReaddir s path).2.2 := by
  unfold kssfsReaddir
  split_ifs
  · exact SameImage.rfl
  · exact readdirLoop_same _ _ _

/-! ## The addresses of the kernel

The tool counts bytes in 32 bits, the kernel sectors. So the kernel can address 512 times as much
as the tool, and the cluster numbers wrap around at `2 ^ 28` and at `2 ^ 19`. -/

/-- The offset in the image at which the tool reads and writes cluster `i`. -/
def clusterOffset (i : LONG) : ℕ := (512 + i * 8192).toNat

lemma kssfsReadCluster_eq (s : Mount) (i : LONG) :
    kssfsReadCluster s i =
      { s with
        stream := (Host.fread (Host.fseek s.stream (clusterOffset i)) s.buf 8192).1
        buf := (Host.fread (Host.fseek s.stream (clusterOffset i)) s.buf 8192).2 } := rfl

lemma kssfsWriteCluster_eq (s : Mount) (i : LONG) (buf : ℕ → BYTE) :
    kssfsWriteCluster s i buf =
      { s with stream := Host.fwrite (Host.fseek s.stream (clusterOffset i)) buf 8192 } := rfl

/-- The offset, from the first byte of the file system mounted at `lba`, at which the kernel reads
and writes cluster `n`: `512 * (KSSFS_CLSTR_LBA(n) - lba)`. -/
def kernelOffset (lba n : LONG) : ℕ := 512 * (clstrLba lba n - lba).toNat

lemma kernelOffset_eq (lba n : LONG) : kernelOffset lba n = 512 + 8192 * (n.toNat % 2 ^ 28) := by
  have hcancel : clstrLba lba n - lba = 1 + n * 16 := by
    unfold clstrLba
    grind
  rw [kernelOffset, hcancel, UInt32.toNat_add, toNat_mul_sixteen, UInt32.toNat_one]
  omega

/-- The clusters at the offsets `o` and `o'` have no byte in common. -/
def Apart (o o' : ℕ) : Prop := ∀ a, o ≤ a ∧ a < o + 8192 → ¬(o' ≤ a ∧ a < o' + 8192)

/-- **When the tool and the kernel agree.** For every number of clusters in the header and every
place on the drive: the tool and the kernel look for each of the clusters at the same bytes of the
image, and no two of them overlap, iff there are at most `2 ^ 19` clusters.

**Proof sketch.** Below `2 ^ 19` neither of the numbers wraps around. Cluster `2 ^ 19` is the first
that does: the tool has it where cluster `0` is. -/
theorem clusterOffset_eq_kernelOffset_iff (lba clusterN : LONG) :
    ((∀ n < clusterN, clusterOffset n = kernelOffset lba n) ∧
      ∀ m < clusterN, ∀ n < clusterN, m ≠ n →
        Apart (clusterOffset m) (clusterOffset n) ∧
        Apart (kernelOffset lba m) (kernelOffset lba n)) ↔
    clusterN.toNat ≤ 2 ^ 19 := by
  constructor
  · rintro ⟨hsame, -⟩
    by_contra hlarge
    have hwrap : (524288 : LONG).toNat = 524288 := rfl
    have heq := hsame 524288 (UInt32.lt_iff_toNat_lt.mpr (by omega))
    rw [clusterOffset, offset_toNat, kernelOffset_eq, hwrap] at heq
    omega
  · intro hsmall
    have htool : ∀ n < clusterN, clusterOffset n = 512 + 8192 * n.toNat := by
      intro n hn
      have hn := UInt32.lt_iff_toNat_lt.mp hn
      rw [clusterOffset, offset_toNat, Nat.mod_eq_of_lt (by omega)]
    have hkernel : ∀ n < clusterN, kernelOffset lba n = 512 + 8192 * n.toNat := by
      intro n hn
      have hn := UInt32.lt_iff_toNat_lt.mp hn
      rw [kernelOffset_eq, Nat.mod_eq_of_lt (by omega)]
    refine ⟨fun n hn => (htool n hn).trans (hkernel n hn).symm, fun m hm n hn hne => ?_⟩
    have hapart : Apart (512 + 8192 * m.toNat) (512 + 8192 * n.toNat) := by
      have hval : m.toNat ≠ n.toNat := fun h => hne (UInt32.toNat_inj.mp h)
      intro a hm hn
      omega
    rw [htool m hm, htool n hn, hkernel m hm, hkernel n hn]
    exact ⟨hapart, hapart⟩

/-- In an image of `2 ^ 19 + 1` clusters the tool has the last one where the first one is. -/
theorem clusterOffset_wraps :
    clusterOffset 0 = 512 ∧ clusterOffset 524288 = 512 ∧ kernelOffset 1 524288 = 4294967808 ∧
    ¬∀ n < (524289 : LONG), clusterOffset n = kernelOffset 1 n := by
  refine ⟨rfl, rfl, rfl, fun h => ?_⟩
  have heq : (512 : ℕ) = 4294967808 := h 524288 (by decide)
  omega

end Korolev.Fuse
