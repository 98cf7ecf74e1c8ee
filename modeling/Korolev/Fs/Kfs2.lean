import Korolev.Fs.ClusterCache
import Korolev.Libc.String

set_option relaxedAutoImplicit false
set_option autoImplicit false

/-!
# The kernel side of the Korolev File System Mark II

`fs/kfs2.c` keeps one mounted file system in global variables: its first sector, the number of
its clusters, a table of 16 open files and one buffer, which holds the header while mounting and
the last cluster read afterwards. The globals are the fields of `Korolev.Kfs2`, the functions of
the file take and return that record.

The buffer and what `kfs2_read_cluster` does with it are shared with the older file system
(`Korolev.ClusterCache`). The handle table is a region of records, the memory from `kfs2_handles`
on; the array is its first `16`. `kfs2_read_byte` also computes indices below `kfs2_buf`. What the
compiler has put there is a parameter of its model, a function of the globals that change during the
call: `kfs2_cluster_index` may well be there. The initial value of the local variable that is read
before it is assigned is a parameter, too.

## Main definitions

* `Korolev.Kfs2` — the globals of the file system, the drive and the console messages.
* `Korolev.Kfs2Below` — what is found below `kfs2_buf`.
* `Korolev.kfs2Init`, `Korolev.kfs2ReadCluster`, `Korolev.kfs2ReadByte`,
  `Korolev.kfs2OpenFile`, `Korolev.kfs2CloseFile` — the functions of `fs/kfs2.c`.
* `Korolev.Kfs2Op`, `Korolev.Kfs2.step` — a call of one of them, and its effect on the globals.
-/

namespace Korolev

open Bytes

/-! ## Constants of `include/fs/kfs2.h` -/

/-- The first word of a KFS2 header. -/
def KFS2_SIGNATURE : LONG := 0x37019627

/-- The type of a cluster that starts a file. -/
def KFS2_TYPE_FILE : LONG := 1

/-- The number of files that can be open. -/
def KFS2_MAX_FILES : ℕ := 16

/-! ## The globals -/

/-- `kfs2_file`: a slot of the table of open files. Bit `0` of `flags` says "open". -/
structure Kfs2File where
  flags : LONG
  startclstr : LONG
deriving DecidableEq

/-- The slot holds an open file. -/
def Kfs2File.Open (f : Kfs2File) : Prop := f.flags &&& 1 ≠ 0

instance (f : Kfs2File) : Decidable f.Open := inferInstanceAs (Decidable (_ ≠ _))

/-- The globals of `fs/kfs2.c`, with the drive they are read from and the messages printed. -/
structure Kfs2 extends ClusterCache where
  err : LONG
  handles : ℕ → Kfs2File
  log : List String

/-- The globals at boot: the initialisers of the source, and zeroed storage. -/
def Kfs2.boot (ide : Ide) : Kfs2 where
  lba := 0
  buf := fun _ => 0
  clusterIndex := 0
  clusterN := 0
  err := 0
  handles := fun _ => ⟨0, 0⟩
  ide := ide
  log := []

/-- `puts`, as far as the file system is concerned. -/
def Kfs2.puts (s : Kfs2) (msg : String) : Kfs2 := { s with log := s.log ++ [msg] }

/-- `kfs2_cluster->type`, of the cluster at the start of a region. -/
def kfs2Type (m : ℕ → BYTE) : LONG := le32 m 0

/-- `kfs2_cluster->name` -/
def kfs2Name (m : ℕ → BYTE) : ℕ → BYTE := fun k => m (8 + k)

/-- `kfs2_cluster->next` -/
def kfs2Next (m : ℕ → BYTE) : LONG := le32 m 276

/-! ## The functions -/

/-- `kfs2_init(lba)` -/
def kfs2Init (s : Kfs2) (lba : LONG) : ℤ × Kfs2 :=
  if s.lba ≠ 0 then (0, s)
  else
    let s := { s with lba := lba }.puts "[kfs2] init: reading fs header\n"
    let r := ideReadSector s.ide s.lba s.buf 0
    let s := { s with ide := r.2.1, buf := r.2.2 }
    if r.1 ≠ 0 then
      let s := s.puts "[kfs2] init: read error while reading kssfs_header\n"
      (0, { s with lba := 0 })
    else if le32 s.buf 0 ≠ KFS2_SIGNATURE then
      let s := s.puts "[kfs2] init: signature is incorrect\n"
      (0, { s with lba := 0 })
    else
      let s := { s with clusterN := le32 s.buf 4 }.puts "[kfs2] init: header is correct\n"
      let s := { s with
        buf := kmemset s.buf 0 0 8192
        handles := fun j => if j < KFS2_MAX_FILES then ⟨0, 0⟩ else s.handles j
        clusterIndex := 0xffffffff }
      (1, s.puts "[kfs2] init: OK\n")

/-- `kfs2_read_cluster(n)` -/
def kfs2ReadCluster (s : Kfs2) (n : LONG) : Kfs2 :=
  { s with toClusterCache := s.toClusterCache.readCluster n }

@[simp] lemma kfs2ReadCluster_lba (s : Kfs2) (n : LONG) : (kfs2ReadCluster s n).lba = s.lba :=
  s.toClusterCache.readCluster_lba n

@[simp] lemma kfs2ReadCluster_clusterN (s : Kfs2) (n : LONG) :
    (kfs2ReadCluster s n).clusterN = s.clusterN := s.toClusterCache.readCluster_clusterN n

@[simp] lemma kfs2ReadCluster_handles (s : Kfs2) (n : LONG) :
    (kfs2ReadCluster s n).handles = s.handles := rfl

/-- `KFS2_BYTE_CLSTR(i)`, a signed division, stored to a `LONG`. -/
def kfs2ByteClstr (i : LONG) : LONG := (i.toInt32 / 7680).toUInt32

/-- The index into `kfs2_buf` that is computed for byte `i`, with `KFS2_BYTE_CLSTR_OFF(i)` in
signed arithmetic. -/
def kfs2ByteIndex (i : LONG) : ℤ := 512 + (i.toInt32 / 7680 * 7680 - i.toInt32).toInt

/-- The inner loop of `kfs2_read_byte`: follow `clstrN` links from `clstr` on, reading every
cluster passed. Returns the last `clstr`; `clstr_n` is `0` afterwards. -/
def kfs2Walk (s : Kfs2) (clstr : LONG) : (clstrN : ℕ) → Kfs2 × LONG
  | 0 => (kfs2ReadCluster s clstr, clstr)
  | clstrN + 1 =>
    let s := kfs2ReadCluster s clstr
    kfs2Walk s (kfs2Next s.buf) clstrN

/-- What is found below `kfs2_buf`, at an index and at the time of the fetch for byte `i`. It is a
function of the two globals that `kfs2_read_byte` changes; what else is there is the same for all
calls from one state. -/
abbrev Kfs2Below := (clusterIndex : LONG) → (buf : ℕ → BYTE) → (i : LONG) → (idx : ℤ) → BYTE

/-- `kfs2_buf[idx]` at the time of the fetch for byte `i`, where `stray` is what is found below the
array. -/
def kfs2BufAt (s : Kfs2) (stray : Kfs2Below) (i : LONG) (idx : ℤ) : BYTE :=
  if idx < 0 then stray s.clusterIndex s.buf i idx else s.buf idx.toNat

/-- The outer loop of `kfs2_read_byte` with `n` iterations left and the counter at `i`. The
locals `clstr` and `clstr_n` live across iterations. Returns the globals and the bytes stored to
`dest`. -/
def kfs2ReadLoop (start : LONG) (stray : Kfs2Below) :
    (n : ℕ) → (i clstr clstrN : LONG) → Kfs2 → Kfs2 × List BYTE
  | 0, _, _, _, s => (s, [])
  | n + 1, i, clstr, clstrN, s =>
    let t := kfs2ByteClstr i
    let c := if t ≠ clstrN then (start, t) else (clstr, clstrN)
    let w := kfs2Walk s c.1 c.2.toNat
    let b := kfs2BufAt w.1 stray i (kfs2ByteIndex i)
    let r := kfs2ReadLoop start stray n (i + 1) w.2 0 w.1
    (r.1, b :: r.2)

/-- `kfs2_read_byte(file, dest, n, off)`: the count returned, the bytes stored to `dest` and the
globals. `clstrN₀` is the initial value of the uninitialised local `clstr_n`. The loop
`for(int i = off; i < off + n; i++)` compares unsigned, so it runs `off + n - off` times if
`off + n` does not wrap and not at all if it does. -/
def kfs2ReadByte (s : Kfs2) (clstrN₀ : LONG) (stray : Kfs2Below) (file n off : LONG) :
    LONG × List BYTE × Kfs2 :=
  let f := s.handles file.toNat
  if f.flags &&& 1 = 0 then (0, [], { s with err := ENOENT })
  else
    let r := kfs2ReadLoop f.startclstr stray ((off + n).toNat - off.toNat) off 0 clstrN₀ s
    (UInt32.ofNat r.2.length, r.2, r.1)

/-- The slot search of `kfs2_open_file` with `n` slots left, from slot `j` on. -/
def kfs2TakeHandle (s : Kfs2) (i : LONG) : (n j : ℕ) → LONG × Kfs2
  | 0, _ => (0xffffffff, { s with err := EMFILE })
  | n + 1, j =>
    if (s.handles j).flags &&& 1 = 0 then
      (UInt32.ofNat j, { s with handles := Function.update s.handles j ⟨1, i⟩ })
    else kfs2TakeHandle s i n (j + 1)

/-- The cluster loop of `kfs2_open_file` with `n` clusters left, from cluster `i` on. -/
def kfs2OpenScan (filename : ℕ → BYTE) : (n : ℕ) → (i : LONG) → Kfs2 → LONG × Kfs2
  | 0, _, s => (0xffffffff, { s with err := ENOENT })
  | n + 1, i, s =>
    let s := kfs2ReadCluster s i
    if kfs2Type s.buf ≠ KFS2_TYPE_FILE then kfs2OpenScan filename n (i + 1) s
    else if strncmp filename (kfs2Name s.buf) 256 = 0 then kfs2TakeHandle s i KFS2_MAX_FILES 0
    else kfs2OpenScan filename n (i + 1) s

/-- `kfs2_open_file(filename)` -/
def kfs2OpenFile (s : Kfs2) (filename : ℕ → BYTE) : LONG × Kfs2 :=
  kfs2OpenScan filename s.clusterN.toNat 0 s

/-- `kfs2_close_file(handle)` -/
def kfs2CloseFile (s : Kfs2) (handle : LONG) : Kfs2 :=
  if KFS2_MAX_FILES ≤ handle.toNat then { s with err := ENOENT }
  else if (s.handles handle.toNat).flags &&& 1 ≠ 0 then
    { s with handles := Function.update s.handles handle.toNat ⟨0, 0⟩ }
  else s

/-! ## Calls -/

/-- A call of one of the functions. -/
inductive Kfs2Op where
  | init (lba : LONG)
  | readCluster (n : LONG)
  | openFile (filename : ℕ → BYTE)
  | readByte (clstrN₀ : LONG) (stray : Kfs2Below) (file n off : LONG)
  | closeFile (handle : LONG)

/-- The globals after a call. -/
def Kfs2.step (s : Kfs2) : Kfs2Op → Kfs2
  | .init lba => (kfs2Init s lba).2
  | .readCluster n => kfs2ReadCluster s n
  | .openFile filename => (kfs2OpenFile s filename).2
  | .readByte clstrN₀ stray file n off => (kfs2ReadByte s clstrN₀ stray file n off).2.2
  | .closeFile handle => kfs2CloseFile s handle

end Korolev
