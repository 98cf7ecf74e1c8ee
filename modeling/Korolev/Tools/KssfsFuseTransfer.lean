import Korolev.Tools.KssfsFuseNames
import Korolev.Tools.KssfsFuseStore
import Mathlib.Data.List.MinMax
import Mathlib.Data.Nat.Find

set_option relaxedAutoImplicit false
set_option autoImplicit false

/-!
# Transfers of a mounted image

A cluster has 7680 bytes of data. `kssfs_read` and `kssfs_write` cut the size of a transfer at the
end of the cluster, and return what is left of it, but they copy as many bytes as they were asked
for: behind the cluster there is the rest of the program's memory. A transfer that starts behind
the cluster is cut to a negative size.

A write sets the length of the file to its own end, whatever was written before. So the size that
`kssfs_getattr` reports is the end of the last write to the file, and not that of the furthest.

## Main definitions

* `Korolev.Fuse.allowedSize` — the bytes a transfer may move.
* `Korolev.Fuse.ReadInBounds`, `Korolev.Fuse.WriteInBounds` — transfers that move these bytes and
  touch no others.
* `Korolev.Fuse.FuseWrite`, `Korolev.Fuse.writeEnds` — writes, and the ends of those to a cluster.

## Main results

* `Korolev.Fuse.fuse_transfer_bounds_iff` — when transfers are in bounds.
* `Korolev.Fuse.fuse_size_iff` — when the size of a file is the furthest end of a write.
-/

namespace Korolev.Fuse

open Bytes

/-! ## The bounds of one transfer -/

/-- What may be transferred: the bytes up to the end of the cluster, and none behind it. -/
def allowedSize (size offset : QWORD) : ℕ :=
  if offset.toNat < 7680 then min size.toNat (7680 - offset.toNat) else 0

/-- The data area of the cluster of a handle, as it is read into the buffer; positions from 7680 on
are the memory behind the buffer. -/
def dataArea (s : Mount) (fh : QWORD) (k : ℕ) : BYTE :=
  (kssfsReadCluster s fh.toUInt32).buf (512 + k)

/-- The read returns the allowed size, and moves exactly that many bytes of the data area to the
caller's buffer, whatever that was filled with. -/
def ReadInBounds (s : Mount) (fh size offset : QWORD) : Prop :=
  ∀ dest, (kssfsRead s fh dest size offset).1 = allowedSize size offset ∧
    (kssfsRead s fh dest size offset).2.1 =
      blit dest 0 (allowedSize size offset) fun k => dataArea s fh (offset.toNat + k)

/-- The length of the cluster of a handle, as it is stored in the image. -/
def storedLen (s : Mount) (fh : QWORD) : WORD :=
  kssfsLen fun a => s.stream.file.byte (clusterOffset fh.toUInt32 + a)

/-- The write returns the allowed size, moves exactly that many bytes of the caller's buffer to the
data area, changes no other byte of the memory but for the length in the header, stores the cluster
in the image, and the length there is at most 7680; all this for every contents of the caller's
buffer. -/
structure WriteInBounds (s : Mount) (fh size offset : QWORD) : Prop where
  returns : ∀ fbuf, (kssfsWrite s fh fbuf size offset).1 = allowedSize size offset
  memory : ∀ fbuf a, a < 4 ∨ 6 ≤ a → (kssfsWrite s fh fbuf size offset).2.buf a =
    blit (kssfsReadCluster s fh.toUInt32).buf (512 + offset.toNat) (allowedSize size offset) fbuf a
  stored : ∀ fbuf, ∀ a < 8192, (kssfsWrite s fh fbuf size offset).2.stream.file.byte
    (clusterOffset fh.toUInt32 + a) = (kssfsWrite s fh fbuf size offset).2.buf a
  length : ∀ fbuf, (storedLen (kssfsWrite s fh fbuf size offset).2 fh).toNat ≤ 7680

/-- The transfer ends inside of the cluster; or it is empty and starts behind the cluster where the
32 bits of its size do not show it. -/
def InCluster (size offset : QWORD) : Prop :=
  offset.toNat + size.toNat ≤ 7680 ∨ size = 0 ∧ offset.toNat % 2 ^ 32 = 7680

section Bounds

variable {s : Mount} {fh size offset : QWORD}

/-- In the cluster, all that is asked for is allowed. -/
lemma InCluster.allowedSize_eq (h : InCluster size offset) :
    allowedSize size offset = size.toNat := by
  rw [allowedSize]
  rcases h with h | ⟨rfl, -⟩
  · split_ifs <;> omega
  · simp

/-- An empty transfer that starts behind the cluster. -/
lemma transferSize_zero (hoff : 7680 < offset.toNat) :
    (transferSize 0 offset).toNat = (7680 + 2 ^ 64 - offset.toNat) % 2 ^ 32 := by
  have hlt := offset.toNat_lt
  have hconst : (7680 : QWORD).toNat = 7680 := rfl
  have hbig : 7680 < offset + 0 := by
    rw [UInt64.add_zero, UInt64.lt_iff_toNat_lt, hconst]
    exact hoff
  rw [transferSize, if_pos hbig, UInt64.add_zero, UInt64.toNat_toUInt32, UInt64.toNat_sub,
    UInt64.toNat_sub, hconst, UInt64.toNat_zero]
  omega

/-- The result of a transfer is small iff its size is. -/
lemma toInt_toInt32_eq_iff {n : LONG} {m : ℕ} (hm : m < 2 ^ 31) :
    n.toInt32.toInt = m ↔ n.toNat = m := by
  have hbits : n.toInt32.toInt = n.toBitVec.toInt := rfl
  have hlt := n.toNat_lt
  rw [hbits, BitVec.toInt_eq_toNat_bmod, UInt32.toNat_toBitVec]
  dsimp only [Int.bmod]
  split_ifs <;> omega

/-- The size of a transfer in the cluster is not cut. -/
lemma InCluster.transferSize_toNat (h : InCluster size offset) :
    (transferSize size offset).toNat = size.toNat := by
  rcases h with h | ⟨rfl, hoff⟩
  · exact (toInt_toInt32_eq_iff (by omega)).mp (transferSize_of_le h)
  · obtain heq | hlt : offset.toNat = 7680 ∨ 7680 < offset.toNat := by omega
    · have hle : offset.toNat + (0 : QWORD).toNat ≤ 7680 := heq.le
      exact (toInt_toInt32_eq_iff (by decide)).mp (transferSize_of_le hle)
    · have hbound := offset.toNat_lt
      rw [transferSize_zero hlt, UInt64.toNat_zero]
      omega

/-- **The size of a transfer**: it is allowed in full, and returned as such, iff it is in the
cluster. -/
lemma inCluster_iff : InCluster size offset ↔ allowedSize size offset = size.toNat ∧
    (transferSize size offset).toInt32.toInt = allowedSize size offset := by
  constructor
  · intro h
    have hsmall : size.toNat ≤ 7680 := by
      rcases h with h | ⟨rfl, -⟩
      · omega
      · simp
    refine ⟨h.allowedSize_eq, ?_⟩
    rw [h.allowedSize_eq, toInt_toInt32_eq_iff (by omega)]
    exact h.transferSize_toNat
  · rintro ⟨hall, hres⟩
    rw [allowedSize] at hall
    split_ifs at hall with hoff
    · exact .inl (by omega)
    · have hsize : size = 0 := UInt64.toNat_inj.mp hall.symm
      obtain heq | hlt : offset.toNat = 7680 ∨ 7680 < offset.toNat := by omega
      · exact .inl (by omega)
      · have hbound := offset.toNat_lt
        rw [allowedSize, if_neg hoff] at hres
        have hzero := (toInt_toInt32_eq_iff (by decide)).mp hres
        rw [hsize, transferSize_zero hlt] at hzero
        exact .inr ⟨hsize, by omega⟩

lemma allowedSize_le : allowedSize size offset ≤ size.toNat := by
  rw [allowedSize]
  split_ifs <;> omega

/-- **Reads in bounds.**

**Proof sketch.** A read moves all bytes it is asked for. If fewer are allowed, a caller's buffer
with a different byte behind these shows it. -/
lemma readInBounds_iff : ReadInBounds s fh size offset ↔ InCluster size offset := by
  rw [inCluster_iff]
  constructor
  · intro h
    refine ⟨?_, (h fun _ => 0).1⟩
    by_contra hne
    have hlt : allowedSize size offset < size.toNat := lt_of_le_of_ne allowedSize_le hne
    set m := allowedSize size offset
    have hbyte := congrFun (h fun k => dataArea s fh (offset.toNat + k) + 1).2 m
    simp only [kssfsRead] at hbyte
    rw [blit_of_mem (by omega) (by omega), blit_of_not_mem (by omega), Nat.sub_zero, dataArea,
      Nat.add_assoc] at hbyte
    simp at hbyte
  · rintro ⟨hall, hres⟩ dest
    refine ⟨hres, ?_⟩
    rw [hall]
    simp only [kssfsRead, dataArea, Nat.add_assoc]

/-- The memory after a write, but for the length in the header. -/
lemma kssfsWrite_buf (s : Mount) (fh : QWORD) (fbuf : ℕ → BYTE) (size offset : QWORD) {a : ℕ}
    (ha : a < 4 ∨ 6 ≤ a) : (kssfsWrite s fh fbuf size offset).2.buf a =
      blit (kssfsReadCluster s fh.toUInt32).buf (512 + offset.toNat) size.toNat fbuf a :=
  blit_of_not_mem (by omega)

/-- The buffer is stored in the image, whichever cluster that is. -/
lemma kssfsWrite_byte (s : Mount) (fh : QWORD) (fbuf : ℕ → BYTE) (size offset : QWORD) {a : ℕ}
    (ha : a < 8192) : (kssfsWrite s fh fbuf size offset).2.stream.file.byte
      (clusterOffset fh.toUInt32 + a) = (kssfsWrite s fh fbuf size offset).2.buf a := by
  simp only [kssfsWrite, kssfsWriteCluster_eq, Host.fwrite, Host.fseek, Host.File.write]
  exact blit_add ha

/-- The length that is stored. -/
lemma storedLen_kssfsWrite (s : Mount) (fh : QWORD) (fbuf : ℕ → BYTE) (size offset : QWORD) :
    storedLen (kssfsWrite s fh fbuf size offset).2 fh =
      (offset + (transferSize size offset).toUInt64).toUInt16 := by
  have hbytes : storedLen (kssfsWrite s fh fbuf size offset).2 fh =
      le16 (bytes16 (offset + (transferSize size offset).toUInt64).toUInt16) 0 := by
    refine le16_congr fun k hk => ?_
    rw [Nat.add_assoc, kssfsWrite_byte s fh fbuf size offset (by omega), Nat.zero_add]
    exact blit_add hk
  rw [hbytes, le16_bytes16]

/-- The length stored by a transfer in the cluster is where it ends. -/
lemma InCluster.storedLen_le (h : InCluster size offset) :
    (offset + (transferSize size offset).toUInt64).toUInt16.toNat ≤ 7680 := by
  rw [UInt64.toNat_toUInt16, UInt64.toNat_add, UInt32.toNat_toUInt64, h.transferSize_toNat]
  rcases h with h | ⟨rfl, hoff⟩
  · omega
  · rw [UInt64.toNat_zero]
    omega

/-- **Writes in bounds.**

**Proof sketch.** A write moves all bytes it is given. If fewer are allowed, a byte behind these
that differs from the one in the memory shows it. -/
lemma writeInBounds_iff : WriteInBounds s fh size offset ↔ InCluster size offset := by
  constructor
  · intro h
    refine inCluster_iff.mpr ⟨?_, h.returns fun _ => 0⟩
    by_contra hne
    have hlt : allowedSize size offset < size.toNat := lt_of_le_of_ne allowedSize_le hne
    set m := allowedSize size offset
    set old := (kssfsReadCluster s fh.toUInt32).buf (512 + offset.toNat + m) with hold
    have hbyte := h.memory (fun _ => old + 1) (512 + offset.toNat + m) (by omega)
    rw [kssfsWrite_buf _ _ _ _ _ (by omega), blit_add hlt, blit_of_not_mem (by omega), ← hold]
      at hbyte
    simp at hbyte
  · intro h
    obtain ⟨hall, hres⟩ := inCluster_iff.mp h
    constructor
    case returns => exact fun _ => hres
    case memory =>
      intro fbuf a ha
      rw [hall]
      exact kssfsWrite_buf s fh fbuf size offset ha
    case stored => exact fun fbuf a ha => kssfsWrite_byte s fh fbuf size offset ha
    case length =>
      intro fbuf
      rw [storedLen_kssfsWrite]
      exact h.storedLen_le

/-- The data area of a handle in range is that of its cluster. -/
lemma dataArea_eq (h : Complete s) (hfh : fh.toNat < s.clusterN.toNat) {k : ℕ} (hk : k < 7680) :
    dataArea s fh k = cluster s.stream.file fh.toNat (512 + k) := by
  have hidx := handle_toNat h hfh
  rw [dataArea, kssfsReadCluster_buf h (by omega) (by omega), hidx]

end Bounds

/-- **When transfers are bounded by the cluster.** For every state, handle, size and offset: a read
and a write return what is allowed, and move that many bytes and touch no others, iff they end
inside of the cluster, or are empty and start at a multiple of `2 ^ 32` behind its end. In a
complete image, the data area of a handle in range is that of its cluster. -/
theorem fuse_transfer_bounds_iff (s : Mount) (fh size offset : QWORD) :
    (ReadInBounds s fh size offset ↔ InCluster size offset) ∧
    (WriteInBounds s fh size offset ↔ InCluster size offset) ∧
    (Complete s → fh.toNat < s.clusterN.toNat →
      ∀ k < 7680, dataArea s fh k = cluster s.stream.file fh.toNat (512 + k)) :=
  ⟨readInBounds_iff, writeInBounds_iff, fun h hfh _ hk => dataArea_eq h hfh hk⟩

/-- A page at the start of a cluster is transferred in bounds. -/
theorem fuse_transfer_bounds_iff_page :
    ReadInBounds freeImage 1 4096 0 ∧ WriteInBounds freeImage 1 4096 0 := by
  have h := fuse_transfer_bounds_iff freeImage 1 4096 0
  have hin : InCluster 4096 0 := .inl (by decide)
  exact ⟨h.1.mpr hin, h.2.1.mpr hin⟩

/-- The second page of a cluster is cut: 3584 bytes are returned, but byte 4095 of it is moved, from
and to the memory 511 bytes behind the buffer. -/
theorem fuse_transfer_overruns :
    (kssfsRead { freeImage with buf := fun _ => 7 } 0 (fun _ => 0) 4096 4096).1 = 3584 ∧
    (kssfsRead { freeImage with buf := fun _ => 7 } 0 (fun _ => 0) 4096 4096).2.1 4095 = 7 ∧
    (kssfsWrite freeImage 0 (fun _ => 1) 4096 4096).2.buf (8192 + 511) = 1 ∧
    ¬ReadInBounds freeImage 0 4096 4096 ∧ ¬WriteInBounds freeImage 0 4096 4096 := by
  have hout : ¬InCluster 4096 4096 := fun h => by
    rcases h with h | ⟨h, -⟩
    · exact absurd h (by decide)
    · exact absurd h (by decide)
  exact ⟨by decide, by decide, by decide, fun h => hout (readInBounds_iff.mp h),
    fun h => hout (writeInBounds_iff.mp h)⟩

/-! ## The size after many writes -/

/-- A call of `kssfs_write`. -/
structure FuseWrite where
  fh : QWORD
  fbuf : ℕ → BYTE
  size : QWORD
  offset : QWORD

/-- Where a write ends. -/
def FuseWrite.fin (w : FuseWrite) : ℕ := w.offset.toNat + w.size.toNat

/-- The write is to a cluster of the image, and inside of it. -/
def FuseWrite.Valid (s : Mount) (w : FuseWrite) : Prop :=
  w.fh.toNat < s.clusterN.toNat ∧ w.fin ≤ 7680

/-- The mounted image after a write. -/
def Mount.writeStep (s : Mount) (w : FuseWrite) : Mount :=
  (kssfsWrite s w.fh w.fbuf w.size w.offset).2

/-- The ends of the writes to a cluster, in order. -/
def writeEnds (c : ℕ) (ops : List FuseWrite) : List ℕ :=
  (ops.filter fun w => w.fh.toNat = c).map FuseWrite.fin

/-- The length in the header of a cluster. -/
def lenOf (s : Mount) (c : ℕ) : ℕ := (kssfsLen (cluster s.stream.file c)).toNat

/-- The only file with a name: no other cluster in use has it. -/
def OnlyFile (s : Mount) (name : ℕ → BYTE) (c : ℕ) : Prop :=
  Matches s name c ∧ ∀ d, Matches s name d → d = c

/-- The cluster in which a lookup without a test of the type finds a name. -/
structure FirstNamed (s : Mount) (name : ℕ → BYTE) (d : ℕ) : Prop where
  lt : d < s.clusterN.toNat
  named : nameIs name (cluster s.stream.file d) = true
  first : ∀ c < d, nameIs name (cluster s.stream.file c) = false

/-- The query succeeds, the size reported is the largest of the ends (`0` if there are none), and no
write ends behind it. -/
def SizeRight (e : Env) (s : Mount) (path : ℕ → BYTE) (ends : List ℕ) : Prop :=
  (kssfsGetattr e s path).1 = 0 ∧ (kssfsGetattr e s path).2.1.size = ends.foldr max 0 ∧
    ∀ n ∈ ends, n ≤ (kssfsGetattr e s path).2.1.size

section Sizes

variable {s : Mount} {path : ℕ → BYTE} {c : ℕ}

/-- The length after a write: the end of the write, for the cluster written to. -/
lemma lenOf_writeStep (h : Complete s) {w : FuseWrite} (hw : w.Valid s)
    (hc : c < s.clusterN.toNat) :
    lenOf (s.writeStep w) c = if w.fh.toNat = c then w.fin else lenOf s c := by
  have hbyte : ∀ a < 8192, _ = _ := fun a ha =>
    kssfsWrite_cluster h w.fh w.fbuf w.size w.offset hc ha
  rw [handle_toNat h hw.1] at hbyte
  by_cases heq : c = w.fh.toNat
  · have hin : InCluster w.size w.offset := .inl hw.2
    have hlen : kssfsLen (cluster (s.writeStep w).stream.file c) =
        le16 (bytes16 (w.offset + (transferSize w.size w.offset).toUInt64).toUInt16) 0 := by
      refine le16_congr fun k hk => ?_
      refine (hbyte _ (by omega)).trans ?_
      rw [if_pos heq, blit_add hk, Nat.zero_add]
    have hfin : w.offset.toNat + w.size.toNat ≤ 7680 := hw.2
    rw [lenOf, if_pos heq.symm, hlen, le16_bytes16, UInt64.toNat_toUInt16, UInt64.toNat_add,
      UInt32.toNat_toUInt64, hin.transferSize_toNat, FuseWrite.fin]
    omega
  · rw [if_neg fun h => heq h.symm]
    refine congrArg UInt16.toNat (le16_congr fun k hk => ?_)
    exact (hbyte _ (by omega)).trans (if_neg heq)

/-- A name stays where it is, in every write. -/
lemma nameIs_writeStep (h : Complete s) (w : FuseWrite) (name : ℕ → BYTE)
    (hc : c < s.clusterN.toNat) : nameIs name (cluster (s.writeStep w).stream.file c) =
      nameIs name (cluster s.stream.file c) := by
  rw [Bool.eq_iff_iff, nameIs_iff, nameIs_iff]
  refine CStr.eqUpTo_congr_right fun k hk => ?_
  exact kssfsWrite_header h w.fh w.fbuf w.size w.offset hc (by omega) (by omega)

/-- **The length after many writes** is the end of the last one to the cluster. -/
lemma lenOf_run {ops : List FuseWrite} (h : Complete s) (hops : ∀ w ∈ ops, w.Valid s)
    (hc : c < s.clusterN.toNat) :
    lenOf (Run.run Mount.writeStep s ops) c = (writeEnds c ops).getLastD (lenOf s c) := by
  induction ops generalizing s with
  | nil => rfl
  | cons w ops ih =>
    have hw := hops w List.mem_cons_self
    have hnext : Complete (s.writeStep w) := kssfsWrite_complete h _ _ _ _
    rw [Run.run_cons, ih hnext (fun v hv => hops v (List.mem_cons_of_mem w hv)) hc,
      lenOf_writeStep h hw hc, writeEnds, writeEnds, List.filter_cons]
    by_cases heq : w.fh.toNat = c
    · simp only [heq, decide_true, if_true, List.map_cons, List.getLastD_cons]
    · simp only [heq, decide_false, if_false, Bool.false_eq_true]

/-- The first cluster with a name stays the same, in every run of writes. -/
lemma FirstNamed.run {name : ℕ → BYTE} {d : ℕ} (ops : List FuseWrite) (h : Complete s)
    (hd : FirstNamed s name d) :
    Complete (Run.run Mount.writeStep s ops) ∧
      FirstNamed (Run.run Mount.writeStep s ops) name d := by
  refine Run.run_invariant_of_forall (I := fun t => Complete t ∧ FirstNamed t name d) ?_ ⟨h, hd⟩ ops
  rintro t w ⟨ht, hdt⟩
  refine ⟨kssfsWrite_complete ht _ _ _ _, hdt.lt, ?_, fun c hc => ?_⟩
  · rw [nameIs_writeStep ht w name hdt.lt]
    exact hdt.named
  · rw [nameIs_writeStep ht w name (hc.trans hdt.lt)]
    exact hdt.first c hc

/-- A query reports the length of the first cluster with the name. -/
lemma kssfsGetattr_size (e : Env) (h : Complete s) (hroot : isRoot path = false) {d : ℕ}
    (hd : FirstNamed s (tail path) d) :
    (kssfsGetattr e s path).1 = 0 ∧ (kssfsGetattr e s path).2.1.size = lenOf s d := by
  rw [kssfsGetattr, if_neg (by simp [hroot])]
  obtain ⟨s', heq, -, hall⟩ | ⟨j, s', heq, -, hj, hnamed, hbefore, hbuf⟩ :=
    scan_cases (nameIs_ofCluster (tail path)) h
  · have hnone := hall d hd.lt
    rw [hd.named] at hnone
    exact absurd hnone (by decide)
  · obtain rfl : j = d := by
      rcases Nat.lt_trichotomy j d with hlt | rfl | hlt
      · have hnone := hd.first j hlt
        rw [hnamed] at hnone
        exact absurd hnone (by decide)
      · rfl
      · have hnone := hbefore d hlt
        rw [hd.named] at hnone
        exact absurd hnone (by decide)
    rw [heq]
    exact ⟨rfl, congrArg UInt16.toNat (le16_congr fun k hk => hbuf _ (by omega))⟩

/-- A name that some cluster has is found in a first one. -/
lemma exists_firstNamed {name : ℕ → BYTE} (hc : c < s.clusterN.toNat)
    (hname : nameIs name (cluster s.stream.file c) = true) : ∃ d, FirstNamed s name d := by
  have hex : ∃ d, nameIs name (cluster s.stream.file d) = true := ⟨c, hname⟩
  have hle : Nat.find hex ≤ c := Nat.find_min' hex hname
  refine ⟨Nat.find hex, by omega, Nat.find_spec hex, fun d hd => ?_⟩
  exact Bool.eq_false_iff.mpr (Nat.find_min hex hd)

lemma FirstNamed.unique {name : ℕ → BYTE} {d d' : ℕ} (h : FirstNamed s name d)
    (h' : FirstNamed s name d') : d = d' := by
  have hle : ∀ {a b : ℕ}, FirstNamed s name a → FirstNamed s name b → a ≤ b := by
    intro a b ha hb
    by_contra hlt
    have hnone := ha.first b (not_le.mp hlt)
    rw [hb.named] at hnone
    exact absurd hnone (by decide)
  exact Nat.le_antisymm (hle h h') (hle h' h)

/-- The last of some ends is the largest iff none is behind it. -/
lemma getLastD_eq_foldr_max {ends : List ℕ} :
    ends.getLastD 0 = ends.foldr max 0 ↔ ∀ n ∈ ends, n ≤ ends.getLastD 0 := by
  have hmax : ∀ n ∈ ends, n ≤ ends.foldr max 0 := fun n hn => List.le_max_of_le hn le_rfl
  constructor
  · intro h n hn
    rw [h]
    exact hmax n hn
  · intro h
    refine Nat.le_antisymm ?_ (List.max_le_of_forall_le ends _ h)
    rcases List.mem_cons.mp (List.getLastD_mem_cons (l := ends) (a := 0)) with hzero | hmem
    · rw [hzero]
      exact Nat.zero_le _
    · exact hmax _ hmem

end Sizes

/-- **When the size of a file is right.** For every complete image whose files are empty, every
sequence of writes inside of its clusters, and every file that alone has its name: the size that is
reported is the furthest end of a write to the file, and no write to it ends behind it, iff

* the file is the first cluster with its name, and no write to it ends behind the last one; or
* a free cluster in front of the file has its name, and the end of the last write to that one (the
  length it started with, if there is none) happens to be the right number. -/
theorem fuse_size_iff {s : Mount} (h : Complete s) {ops : List FuseWrite}
    (hops : ∀ w ∈ ops, w.Valid s)
    (hempty : ∀ c < s.clusterN.toNat, Allocated s c → lenOf s c = 0) (e : Env) {path : ℕ → BYTE}
    (hroot : isRoot path = false) {c : ℕ} (hc : OnlyFile s (tail path) c) :
    SizeRight e (Run.run Mount.writeStep s ops) path (writeEnds c ops) ↔
      (FirstNamed s (tail path) c ∧ ∀ n ∈ writeEnds c ops, n ≤ (writeEnds c ops).getLastD 0) ∨
      ∃ d, FirstNamed s (tail path) d ∧ ¬Allocated s d ∧
        (writeEnds d ops).getLastD (lenOf s d) = (writeEnds c ops).foldr max 0 := by
  obtain ⟨hclt, halloc, hname⟩ := hc.1
  have hcname : nameIs (tail path) (cluster s.stream.file c) = true := by
    rw [nameIs_iff, ← Host.strncmp_eq_zero_iff]
    exact hname
  obtain ⟨d, hd⟩ := exists_firstNamed hclt hcname
  obtain ⟨hrun, hdrun⟩ := hd.run ops h
  obtain ⟨hres, hsize⟩ := kssfsGetattr_size e hrun hroot hdrun
  have hright : SizeRight e (Run.run Mount.writeStep s ops) path (writeEnds c ops) ↔
      (writeEnds d ops).getLastD (lenOf s d) = (writeEnds c ops).foldr max 0 := by
    rw [SizeRight, hres, hsize, lenOf_run h hops hd.lt]
    refine ⟨fun hr => hr.2.1, fun heq => ⟨rfl, heq, fun n hn => ?_⟩⟩
    rw [heq]
    exact List.le_max_of_le hn le_rfl
  rw [hright]
  by_cases hdc : d = c
  · subst hdc
    rw [hempty d hd.lt halloc, getLastD_eq_foldr_max]
    constructor
    · exact fun hlast => .inl ⟨hd, hlast⟩
    · rintro (⟨-, hlast⟩ | ⟨d', hd', hfree, -⟩)
      · exact hlast
      · rw [hd'.unique hd] at hfree
        exact absurd halloc hfree
  · have hfree : ¬Allocated s d := by
      intro hused
      refine hdc (hc.2 d ⟨hd.lt, hused, ?_⟩)
      rw [Host.strncmp_eq_zero_iff]
      exact nameIs_iff.mp hd.named
    constructor
    · exact fun heq => .inr ⟨d, hd, hfree, heq⟩
    · rintro (⟨hcfirst, -⟩ | ⟨d', hd', -, heq⟩)
      · exact absurd (hd.unique hcfirst) hdc
      · rw [hd.unique hd']
        exact heq

/-- Two writes one after the other leave the size right. -/
theorem fuse_size_iff_append :
    SizeRight ⟨0, 0, 0⟩ (Run.run Mount.writeStep emptyFileImage
      [⟨0, fun _ => 1, 5, 0⟩, ⟨0, fun _ => 2, 3, 5⟩]) (ofList [47, 97]) [5, 8] := by
  have hone : ∀ c < emptyFileImage.clusterN.toNat, c = 0 := fun c hc => Nat.lt_one_iff.mp hc
  have hlen : ∀ c < emptyFileImage.clusterN.toNat, Allocated emptyFileImage c →
      lenOf emptyFileImage c = 0 := by
    intro c hc _
    rw [hone c hc]
    rfl
  have hops : ∀ w ∈ [(⟨0, fun _ => 1, 5, 0⟩ : FuseWrite), ⟨0, fun _ => 2, 3, 5⟩],
      w.Valid emptyFileImage := by
    simp only [List.mem_cons, List.not_mem_nil, or_false]
    rintro w (rfl | rfl)
    · exact ⟨by decide, by decide⟩
    · exact ⟨by decide, by decide⟩
  have hfirst : FirstNamed emptyFileImage (tail (ofList [47, 97])) 0 :=
    ⟨by decide, by decide +kernel, fun c hc => absurd hc (Nat.not_lt_zero c)⟩
  exact (fuse_size_iff emptyFileImage_complete hops hlen ⟨0, 0, 0⟩ (by decide)
    ⟨emptyFileImage_matches, fun d hd => hone d hd.1⟩).mpr (.inl ⟨hfirst, by decide⟩)

/-- A write to the start of a file cuts the file there: after five bytes and then one at the start,
the size is `1`. -/
theorem fuse_size_shrinks :
    (kssfsGetattr ⟨0, 0, 0⟩ (Run.run Mount.writeStep emptyFileImage
      [⟨0, fun _ => 1, 5, 0⟩, ⟨0, fun _ => 2, 1, 0⟩]) (ofList [47, 97])).2.1.size = 1 ∧
    ¬SizeRight ⟨0, 0, 0⟩ (Run.run Mount.writeStep emptyFileImage
      [⟨0, fun _ => 1, 5, 0⟩, ⟨0, fun _ => 2, 1, 0⟩]) (ofList [47, 97]) [5, 1] := by
  have hsize : (kssfsGetattr ⟨0, 0, 0⟩ (Run.run Mount.writeStep emptyFileImage
      [⟨0, fun _ => 1, 5, 0⟩, ⟨0, fun _ => 2, 1, 0⟩]) (ofList [47, 97])).2.1.size = 1 := by
    decide +kernel
  refine ⟨hsize, fun h => ?_⟩
  have hmax := h.2.1
  rw [hsize] at hmax
  exact absurd hmax (by decide)

end Korolev.Fuse
