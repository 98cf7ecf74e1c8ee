import Korolev.Library.Run
import Korolev.Tools.KssfsFuse

set_option relaxedAutoImplicit false
set_option autoImplicit false

/-!
# The mounted image as a store

What reads and writes of a mounted KSSFS image are for: a store that maps a handle and a position
to a byte. All operations go through one buffer, which is shared by all handles, and a write
rewrites its whole cluster; the store has nothing of that.

The operations considered are those that leave the set of files alone: reads and writes inside of
the clusters, attribute and directory queries, and opening a file that is there.

## Main definitions

* `Korolev.Fuse.Store`, `Korolev.Fuse.Store.step` — the store.
* `Korolev.Fuse.StoreOp` — the operations, with `Korolev.Fuse.StoreOp.Valid` for those considered.
* `Korolev.Fuse.Stores` — the image has the contents of a store.

## Main results

* `Korolev.Fuse.Stores.step` — every operation keeps image and store in step.
* `Korolev.Fuse.fuse_store_refinement` — in every run, reads return what was written last.
-/

namespace Korolev.Fuse

open Bytes

/-! ## Operations -/

/-- A store: the bytes of each handle. -/
abbrev Store := ℕ → ℕ → BYTE

/-- The operations on a mounted image that do not change its names. -/
inductive StoreOp where
  | read (fh : QWORD) (dest : ℕ → BYTE) (size offset : QWORD)
  | write (fh : QWORD) (fbuf : ℕ → BYTE) (size offset : QWORD)
  | getattr (e : Env) (path : ℕ → BYTE)
  | readdir (path : ℕ → BYTE)
  | openFile (path : ℕ → BYTE) (fh : QWORD)

/-- A name is present: a cluster in use has it. -/
def Present (s : Mount) (name : ℕ → BYTE) : Prop :=
  ∃ c < s.clusterN.toNat, inUseAs name (cluster s.stream.file c) = true

/-- Transfers are for a handle in range and inside of the cluster; opened files are there. -/
def StoreOp.Valid (s : Mount) : StoreOp → Prop
  | .read fh _ size offset => fh.toNat < s.clusterN.toNat ∧ offset.toNat + size.toNat ≤ 7680
  | .write fh _ size offset => fh.toNat < s.clusterN.toNat ∧ offset.toNat + size.toNat ≤ 7680
  | .getattr _ _ => True
  | .readdir _ => True
  | .openFile path _ => Present s (tail path)

/-- The mounted image after an operation. -/
def Mount.storeStep (s : Mount) : StoreOp → Mount
  | .read fh dest size offset => (kssfsRead s fh dest size offset).2.2
  | .write fh fbuf size offset => (kssfsWrite s fh fbuf size offset).2
  | .getattr e path => (kssfsGetattr e s path).2.2
  | .readdir path => (kssfsReaddir s path).2.2
  | .openFile path fh => (kssfsOpen s path fh).2.2

/-- The store after `fbuf` was written. -/
def Store.write (f : Store) (fh : ℕ) (fbuf : ℕ → BYTE) (size offset : ℕ) : Store :=
  Function.update f fh (blit (f fh) offset size fbuf)

/-- The store after an operation: a write replaces the bytes written. -/
def Store.step (f : Store) : StoreOp → Store
  | .write fh fbuf size offset => f.write fh.toNat fbuf size.toNat offset.toNat
  | _ => f

/-- The store an image starts with: the data areas of its clusters. -/
def Mount.store (s : Mount) : Store := fun c k => cluster s.stream.file c (512 + k)

/-- What a write leaves alone: all other clusters, and the header of its own but for the
length. -/
structure WriteFrame (s s' : Mount) (fh : ℕ) : Prop where
  others : ∀ c < s.clusterN.toNat, c ≠ fh →
    ∀ a < 8192, cluster s'.stream.file c a = cluster s.stream.file c a
  type_eq : kssfsType (cluster s'.stream.file fh) = kssfsType (cluster s.stream.file fh)
  filename_eq : ∀ k < 256, kssfsFilename (cluster s'.stream.file fh) k =
    kssfsFilename (cluster s.stream.file fh) k
  uid_eq : kssfsUid (cluster s'.stream.file fh) = kssfsUid (cluster s.stream.file fh)
  gid_eq : kssfsGid (cluster s'.stream.file fh) = kssfsGid (cluster s.stream.file fh)
  perm_eq : kssfsPerm (cluster s'.stream.file fh) = kssfsPerm (cluster s.stream.file fh)

/-- What an operation on an image with the contents `f` has to do: a read returns the size and
the bytes of the store, a write changes its data and length only, and all but writes leave the
image alone. -/
def StoreOp.Right (s : Mount) (f : Store) : StoreOp → Prop
  | .read fh dest size offset =>
    (kssfsRead s fh dest size offset).1 = size.toNat ∧
    (kssfsRead s fh dest size offset).2.1 =
      blit dest 0 size.toNat (fun k => f fh.toNat (offset.toNat + k)) ∧
    (kssfsRead s fh dest size offset).2.2.stream.file = s.stream.file
  | .write fh fbuf size offset => WriteFrame s (kssfsWrite s fh fbuf size offset).2 fh.toNat
  | op => (s.storeStep op).stream.file = s.stream.file

/-! ## One operation -/

/-- The image is complete and has the contents `f`. -/
structure Stores (s : Mount) (f : Store) : Prop where
  complete : Complete s
  data : ∀ c < s.clusterN.toNat, ∀ k < 7680, cluster s.stream.file c (512 + k) = f c k

/-- What an image stores depends on the image only. -/
lemma Stores.of_same {s s' : Mount} {f : Store} (h : Stores s f) (hsame : SameImage s s') :
    Stores s' f := by
  refine ⟨h.complete.of_same hsame, ?_⟩
  rw [hsame.clusterN_eq, hsame.file_eq]
  exact h.data

/-- A handle in range is not cut. -/
lemma handle_toNat {s : Mount} (h : Complete s) {fh : QWORD} (hfh : fh.toNat < s.clusterN.toNat) :
    fh.toUInt32.toNat % 2 ^ 19 = fh.toNat := by
  have hN := h.clusterN_le
  rw [UInt64.toNat_toUInt32, Nat.mod_eq_of_lt (by omega), Nat.mod_eq_of_lt (by omega)]

/-- A read returns the bytes of the store. -/
lemma Stores.read_right {s : Mount} {f : Store} (h : Stores s f) {fh : QWORD} (dest : ℕ → BYTE)
    {size offset : QWORD} (hfh : fh.toNat < s.clusterN.toNat)
    (hin : offset.toNat + size.toNat ≤ 7680) :
    (StoreOp.read fh dest size offset).Right s f := by
  have hidx := handle_toNat h.complete hfh
  refine ⟨transferSize_of_le hin, ?_, rfl⟩
  simp only [kssfsRead]
  refine blit_congr fun k hk => ?_
  rw [kssfsReadCluster_buf h.complete (by omega) (by omega), hidx, Nat.add_assoc,
    h.data _ hfh _ (by omega)]

/-- A write leaves the other clusters and the other fields of the header alone. -/
lemma Stores.write_right {s : Mount} {f : Store} (h : Stores s f) {fh : QWORD} (fbuf : ℕ → BYTE)
    {size offset : QWORD} (hfh : fh.toNat < s.clusterN.toNat) :
    (StoreOp.write fh fbuf size offset).Right s f := by
  have hidx := handle_toNat h.complete hfh
  have hheader : ∀ a < 512, a < 4 ∨ 6 ≤ a →
      cluster (kssfsWrite s fh fbuf size offset).2.stream.file fh.toNat a =
        cluster s.stream.file fh.toNat a :=
    fun a ha hlen => kssfsWrite_header h.complete fh fbuf size offset hfh ha hlen
  constructor
  case others =>
    intro c hc hne a ha
    rw [kssfsWrite_cluster h.complete fh fbuf size offset hc ha, hidx, if_neg hne]
  case type_eq => exact le32_congr fun k hk => hheader _ (by omega) (by omega)
  case filename_eq => exact fun k hk => hheader _ (by omega) (by omega)
  case uid_eq => exact le32_congr fun k hk => hheader _ (by omega) (by omega)
  case gid_eq => exact le32_congr fun k hk => hheader _ (by omega) (by omega)
  case perm_eq => exact le32_congr fun k hk => hheader _ (by omega) (by omega)

/-- After a write the image has the contents of the store after the write. -/
lemma Stores.write {s : Mount} {f : Store} (h : Stores s f) {fh : QWORD} (fbuf : ℕ → BYTE)
    {size offset : QWORD} (hfh : fh.toNat < s.clusterN.toNat) :
    Stores (kssfsWrite s fh fbuf size offset).2
      (f.write fh.toNat fbuf size.toNat offset.toNat) := by
  have hidx := handle_toNat h.complete hfh
  refine ⟨kssfsWrite_complete h.complete fh fbuf size offset, fun c hc k hk => ?_⟩
  rw [kssfsWrite_clusterN] at hc
  rw [kssfsWrite_cluster h.complete fh fbuf size offset hc (by omega), hidx, Store.write]
  by_cases heq : c = fh.toNat
  · rw [if_pos heq, heq, Function.update_self, blit_of_not_mem (by omega)]
    by_cases hwritten : offset.toNat ≤ k ∧ k < offset.toNat + size.toNat
    · rw [blit_of_mem (by omega) (by omega), blit_of_mem hwritten.1 hwritten.2]
      congr 1
      omega
    · rw [blit_of_not_mem (by omega), blit_of_not_mem (by omega), h.data _ hfh k hk]
  · rw [if_neg heq, Function.update_of_ne heq, h.data c hc k hk]

/-- Opening a file that is there finds it, and leaves the image alone. -/
lemma kssfsOpen_of_present {s : Mount} (h : Complete s) {path : ℕ → BYTE}
    (hpath : Present s (tail path)) (fh : QWORD) : SameImage s (kssfsOpen s path fh).2.2 := by
  unfold kssfsOpen
  obtain ⟨s', heq, -, hall⟩ | ⟨j, s', heq, hsame, -⟩ :=
    scan_cases (inUseAs_ofCluster (tail path)) h
  · obtain ⟨c, hc, hin⟩ := hpath
    rw [hall c hc] at hin
    simp at hin
  · rw [heq]
    exact hsame

/-- **One operation**: it does what it has to, and keeps image and store in step. -/
lemma Stores.step {s : Mount} {f : Store} (h : Stores s f) {op : StoreOp} (hop : op.Valid s) :
    op.Right s f ∧ Stores (s.storeStep op) (f.step op) := by
  cases op with
  | read fh dest size offset =>
    exact ⟨h.read_right dest hop.1 hop.2, h.of_same (kssfsReadCluster_same s _)⟩
  | write fh fbuf size offset =>
    exact ⟨h.write_right fbuf hop.1, h.write fbuf hop.1⟩
  | getattr e path =>
    have hsame := (kssfsGetattr_spec e h.complete path).1
    exact ⟨hsame.file_eq, h.of_same hsame⟩
  | readdir path =>
    have hsame := kssfsReaddir_same s path
    exact ⟨hsame.file_eq, h.of_same hsame⟩
  | openFile path fh =>
    have hsame := kssfsOpen_of_present h.complete hop fh
    exact ⟨hsame.file_eq, h.of_same hsame⟩

/-! ## Runs -/

/-- An operation on the image and on the store beside it. -/
def pairStep (st : Mount × Store) (op : StoreOp) : Mount × Store :=
  (st.1.storeStep op, st.2.step op)

/-- **The mounted image refines the store.** In every run of valid operations on a complete
image, each read returns the bytes written last (or those of the image), each write leaves the
other clusters and the rest of its header alone, and the other operations leave the image alone.

**Proof sketch.** The image stores its data areas to begin with, and every operation keeps image
and store in step (`Stores.step`). -/
theorem fuse_store_refinement {s : Mount} (h : Complete s) {ops : List StoreOp}
    (hops : Run.Along pairStep (fun st op => op.Valid st.1) (s, s.store) ops) :
    Run.Along pairStep (fun st op => op.Right st.1 st.2) (s, s.store) ops := by
  have hinit : Stores s s.store := ⟨h, fun _ _ _ _ => rfl⟩
  refine Run.along_of_invariant (I := fun st => Stores st.1 st.2) ?_ ?_ hinit hops
  · intro st op hst hop
    exact (hst.step hop).2
  · intro st op hst hop
    exact (hst.step hop).1

/-- A write to the second cluster and a read of it. -/
theorem fuse_store_refinement_write_read :
    Run.Along pairStep (fun st op => op.Right st.1 st.2) (freeImage, freeImage.store)
      [.write 1 (fun _ => 7) 3 5, .read 1 (fun _ => 0) 4 4] :=
  fuse_store_refinement freeImage_complete
    ⟨⟨by decide, by decide⟩, ⟨by decide, by decide⟩, trivial⟩

end Korolev.Fuse
