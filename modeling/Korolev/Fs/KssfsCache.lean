import Korolev.Fs.Kssfs
import Korolev.Library.Run

set_option relaxedAutoImplicit false
set_option autoImplicit false

/-!
# Reading back what was written to KSSFS

Seen from outside, the clusters of a mounted KSSFS are a store: `kssfs_write_cluster` sets the
contents of a cluster, `kssfs_read_cluster` brings them into the buffer. The read path skips the
disk if the cluster is the one in the buffer; the write path goes straight to the disk and does
not look at the buffer. So a write to the very cluster that is in the buffer is not seen by the
next read of it.

That is the only way in which the two differ, as long as the clusters have distinct sectors. With
more than `2 ^ 28` clusters the 32-bit sector numbers wrap, and a write to a cluster is also one
to another.

## Main definitions

* `Korolev.ClusterOp`, `Korolev.Kssfs.clusterStep` — calls that read or write a cluster.
* `Korolev.storeStep` — the store they stand for.
* `Korolev.KssfsReadAfterWrite` — every read of a run sees the latest contents.
* `Korolev.Kssfs.SafeCall` — the call does not write other contents to the cluster in the buffer,
  or to a cluster that has its sectors in common with another.

## Main results

* `Korolev.Kssfs.Stores.step` — one call refines one step of the store.
* `Korolev.kssfs_read_after_write` — reads see the latest contents exactly when every call of the
  run is safe.
-/

namespace Korolev

open Bytes

/-- A call that reads or writes a cluster. -/
inductive ClusterOp where
  | read (n : LONG)
  | write (n : LONG) (buf : ℕ → BYTE)

/-- The cluster a call is about. -/
def ClusterOp.cluster : ClusterOp → LONG
  | .read n => n
  | .write n _ => n

/-- The globals after a call. -/
def Kssfs.clusterStep (s : Kssfs) : ClusterOp → Kssfs
  | .read n => kssfsReadCluster s n
  | .write n buf => kssfsWriteCluster s n buf

/-- The store the calls stand for: the contents of every cluster. -/
def storeStep (f : LONG → ℕ → BYTE) : ClusterOp → LONG → ℕ → BYTE
  | .read _ => f
  | .write n buf => Function.update f n buf

/-- Along the run of `ops` from `s`, every `kssfs_read_cluster(n)` leaves in the buffer the
contents most recently written to cluster `n`, or those of `initial` if there are none. -/
def KssfsReadAfterWrite (s : Kssfs) (initial : LONG → ℕ → BYTE) (ops : List ClusterOp) : Prop :=
  ∀ pre n post, ops = pre ++ ClusterOp.read n :: post → ∀ a < 8192,
    (kssfsReadCluster (Run.run Kssfs.clusterStep s pre) n).buf a =
      Run.run storeStep initial pre n a

/-- The call does not write other contents to the cluster that is in the buffer, nor to sectors
that are those of a second cluster as well. -/
def Kssfs.SafeCall (s : Kssfs) : ClusterOp → Prop
  | .read _ => True
  | .write n buf =>
    (n = s.clusterIndex → ∀ a < 8192, buf a = s.buf a) ∧
    ∀ m < s.clusterN, m ≠ n → SameSectors m n →
      ∀ a < 8192, buf a = clusterByte s.ide.disk s.lba m a

namespace Kssfs

/-- With at most `2 ^ 28` clusters only the buffer matters. -/
lemma safeCall_write_of_le {s : Kssfs} (hN : s.clusterN.toNat ≤ 2 ^ 28) {n : LONG}
    (hn : n < s.clusterN) {buf : ℕ → BYTE}
    (hbuf : n = s.clusterIndex → ∀ a < 8192, buf a = s.buf a) : s.SafeCall (.write n buf) := by
  refine ⟨hbuf, fun m hm hne hsame => absurd (hsame.eq ?_ ?_) hne⟩
  · exact lt_of_lt_of_le (UInt32.lt_iff_toNat_lt.mp hm) hN
  · exact lt_of_lt_of_le (UInt32.lt_iff_toNat_lt.mp hn) hN

/-- A file system with `N` clusters is mounted at `lba`, its clusters on the disk are those of
`f`, and the buffer is coherent with the disk. -/
structure Stores (lba N : LONG) (s : Kssfs) (f : LONG → ℕ → BYTE) : Prop where
  inv : s.Inv s.ide.disk
  lba_eq : s.lba = lba
  clusterN_eq : s.clusterN = N
  index : s.clusterIndex = 0xffffffff ∨ s.clusterIndex < N
  on_disk : ∀ n < N, ∀ a < 8192, clusterByte s.ide.disk lba n a = f n a

namespace Stores

variable {lba N : LONG} {s : Kssfs} {f : LONG → ℕ → BYTE}

/-- Reading a cluster leaves the contents of the drive alone. -/
lemma disk_readCluster (h : Stores lba N s f) (n : LONG) :
    (kssfsReadCluster s n).ide.disk = s.ide.disk := (h.inv.readCluster n).disk_eq

/-- Reads see the store. -/
lemma read_buf (h : Stores lba N s f) (hlba : lba ≠ 0) {n : LONG} (hn : n < N) :
    ∀ a < 8192, (kssfsReadCluster s n).buf a = f n a := by
  intro a ha
  have hread := h.inv.readCluster_buf (n := n) (by rw [h.lba_eq]; exact hlba)
    (by rw [h.clusterN_eq]; exact UInt32.le_of_lt hn) (by grind) a ha
  rw [h.lba_eq, h.on_disk n hn a ha] at hread
  exact hread

/-- A read keeps the refinement. -/
lemma read (h : Stores lba N s f) (hlba : lba ≠ 0) {n : LONG} (hn : n < N) :
    Stores lba N (kssfsReadCluster s n) f where
  inv := by rw [h.disk_readCluster]; exact h.inv.readCluster n
  lba_eq := by rw [kssfsReadCluster_lba, h.lba_eq]
  clusterN_eq := by rw [kssfsReadCluster_clusterN, h.clusterN_eq]
  index := by
    refine .inr ?_
    have hidx : (kssfsReadCluster s n).clusterIndex = n :=
      ClusterCache.readCluster_clusterIndex (by rw [h.lba_eq]; exact hlba)
        (by rw [h.clusterN_eq]; exact UInt32.le_of_lt hn)
    rw [hidx]
    exact hn
  on_disk := by rw [h.disk_readCluster]; exact h.on_disk

/-- A write to a cluster in range replaces the clusters that have its sectors. -/
lemma clusterByte_write (h : Stores lba N s f) (hlba : lba ≠ 0) {n : LONG} (hn : n < N)
    (m : LONG) (buf : ℕ → BYTE) {a : ℕ} (ha : a < 8192) :
    clusterByte (kssfsWriteCluster s n buf).ide.disk lba m a =
      if SameSectors m n then buf a else clusterByte s.ide.disk lba m a := by
  rw [← h.lba_eq]
  exact clusterByte_writeCluster h.inv.faithful (by rw [h.lba_eq]; exact hlba)
    (by rw [h.clusterN_eq]; exact UInt32.le_of_lt hn) m buf ha

/-- A safe write keeps the refinement.

**Proof sketch.** On the disk the write replaces the clusters that have the sectors of `n`. Those
other than `n` had the written bytes already. The buffer is not touched; the cluster it holds was
not written, or was written with the bytes the buffer has. -/
lemma write (h : Stores lba N s f) (hlba : lba ≠ 0) {n : LONG} (hn : n < N) {buf : ℕ → BYTE}
    (hsafe : s.SafeCall (.write n buf)) :
    Stores lba N (kssfsWriteCluster s n buf) (Function.update f n buf) := by
  obtain ⟨hhit, hshared⟩ := hsafe
  rw [h.clusterN_eq, h.lba_eq] at hshared
  obtain ⟨hl, hb, hi, hc⟩ := kssfsWriteCluster_frame s n buf
  refine ⟨⟨kssfsWriteCluster_faithful h.inv.faithful n buf, rfl, ?_⟩, hl.trans h.lba_eq,
    hc.trans h.clusterN_eq, by rw [hi]; exact h.index, ?_⟩
  · rw [hl, hb, hi, h.lba_eq]
    intro _ hidx a ha
    have hold := h.inv.coherent (by rw [h.lba_eq]; exact hlba) hidx a ha
    rw [h.lba_eq] at hold
    rw [h.clusterByte_write hlba hn _ buf ha]
    by_cases hsame : SameSectors s.clusterIndex n
    · rw [if_pos hsame]
      by_cases hidxn : s.clusterIndex = n
      · exact (hhit hidxn.symm a ha).symm
      · rw [hshared _ (h.index.resolve_left hidx) hidxn hsame a ha, hold]
    · rw [if_neg hsame, hold]
  · intro m hm a ha
    rw [h.clusterByte_write hlba hn m buf ha]
    by_cases hmn : m = n
    · rw [hmn, if_pos (show SameSectors n n from rfl), Function.update_self]
    · rw [Function.update_of_ne hmn, ← h.on_disk m hm a ha]
      by_cases hsame : SameSectors m n
      · rw [if_pos hsame, hshared m hm hmn hsame a ha]
      · rw [if_neg hsame]

/-- **One call refines one step of the store**, if the cluster is in range and the call is
safe. -/
lemma step (hlba : lba ≠ 0) (h : Stores lba N s f) {op : ClusterOp} (hop : op.cluster < N)
    (hsafe : s.SafeCall op) : Stores lba N (s.clusterStep op) (storeStep f op) := by
  cases op with
  | read n => exact h.read hlba hop
  | write n buf => exact h.write hlba hop hsafe

/-- In a run of safe calls every read sees the store.

**Proof sketch.** The store is refined step by step, so it is refined before every read. -/
lemma readAfterWrite (h : Stores lba N s f) (hlba : lba ≠ 0) {ops : List ClusterOp}
    (hops : ∀ op ∈ ops, op.cluster < N) (hsafe : Run.Along Kssfs.clusterStep SafeCall s ops) :
    KssfsReadAfterWrite s f ops := by
  intro pre n post hsplit
  have hok : Run.Along Kssfs.clusterStep (fun t op => op.cluster < N ∧ t.SafeCall op) s pre := by
    rw [Run.along_iff_split] at hsafe ⊢
    intro p op q hp
    exact ⟨hops op (by simp [hsplit, hp]),
      hsafe p op (q ++ .read n :: post) (by simp [hsplit, hp])⟩
  have hpre : Stores lba N (Run.run Kssfs.clusterStep s pre) (Run.run storeStep f pre) :=
    Run.run_sim (fun t g op ht hop => ht.step hlba hop.1 hop.2) h hok
  exact hpre.read_buf hlba (hops (.read n) (by simp [hsplit]))

/-- If the written cluster and then any other one can be read back, the write was safe.

**Proof sketch.** If the written cluster is in the buffer, reading it is a hit and brings the old
buffer. Once it has been read, every other cluster is a miss, and what is loaded for one that has
its sectors is what was written. -/
lemma safeCall_of_readAfterWrite (h : Stores lba N s f) (hlba : lba ≠ 0) {n : LONG} (hn : n < N)
    {buf : ℕ → BYTE}
    (hread : ∀ m < N, KssfsReadAfterWrite s f [.write n buf, .read n, .read m]) :
    s.SafeCall (.write n buf) := by
  obtain ⟨hl, hb, hi, hc⟩ := kssfsWriteCluster_frame s n buf
  have hlbaw : (kssfsWriteCluster s n buf).lba ≠ 0 := by rw [hl, h.lba_eq]; exact hlba
  have hnN : n ≤ (kssfsWriteCluster s n buf).clusterN := by
    rw [hc, h.clusterN_eq]
    exact UInt32.le_of_lt hn
  have hide := kssfsWriteCluster_faithful h.inv.faithful n buf
  constructor
  · intro hidx a ha
    have hr := hread n hn [.write n buf] n [.read n] rfl a ha
    have hhit : kssfsReadCluster (kssfsWriteCluster s n buf) n = kssfsWriteCluster s n buf := by
      rw [kssfsReadCluster]
      rcases (kssfsWriteCluster s n buf).toClusterCache.readCluster_cases n with
        ⟨-, heq⟩ | ⟨-, -, hne, -⟩
      · rw [heq]
      · exact absurd (hidx.trans hi.symm) hne
    simp only [Run.run_cons, Run.run_nil, clusterStep, storeStep, hhit, hb,
      Function.update_self] at hr
    exact hr.symm
  · intro m hm hmn hsame a ha
    rw [h.clusterN_eq] at hm
    have hr := hread m hm [.write n buf, .read n] m [] rfl a ha
    simp only [Run.run_cons, Run.run_nil, clusterStep, storeStep,
      Function.update_of_ne hmn] at hr
    obtain ⟨hide', hdisk⟩ := ClusterCache.readCluster_ide hide n
    have hmiss : (kssfsReadCluster (kssfsReadCluster (kssfsWriteCluster s n buf) n) m).buf a =
        clusterByte (kssfsWriteCluster s n buf).ide.disk lba m a := by
      have hload := ClusterCache.readCluster_miss
        (c := (kssfsWriteCluster s n buf).toClusterCache.readCluster n) (n := m) hide'
        (by rw [ClusterCache.readCluster_lba]; exact hlbaw)
        (by rw [ClusterCache.readCluster_clusterN, hc, h.clusterN_eq]; exact UInt32.le_of_lt hm)
        (by rw [ClusterCache.readCluster_clusterIndex hlbaw hnN]; exact hmn) a ha
      rw [hdisk, ClusterCache.readCluster_lba, hl, h.lba_eq] at hload
      exact hload
    rw [hmiss, h.clusterByte_write hlba hn m buf ha, if_pos hsame] at hr
    rw [hr, h.lba_eq, h.on_disk m hm a ha]

/-- If reads can be made after every part of a run and see the store, the run is safe.

**Proof sketch.** Induction on the calls. The first call is safe by `safeCall_of_readAfterWrite`,
so it refines the store, and what follows is a run from the refined state. -/
lemma along_safeCall (hlba : lba ≠ 0) (ops : List ClusterOp) :
    ∀ {s : Kssfs} {f : LONG → ℕ → BYTE}, Stores lba N s f → (∀ op ∈ ops, op.cluster < N) →
    (∀ pre post (reads : List LONG), ops = pre ++ post → (∀ n ∈ reads, n < N) →
      KssfsReadAfterWrite s f (pre ++ reads.map ClusterOp.read)) →
    Run.Along Kssfs.clusterStep SafeCall s ops := by
  induction ops with
  | nil => exact fun _ _ _ => trivial
  | cons op ops ih =>
    intro s f h hops hread
    have hop : op.cluster < N := hops op (by simp)
    have hsafe : s.SafeCall op := by
      cases op with
      | read n => trivial
      | write n buf =>
        have hn : n < N := hop
        refine h.safeCall_of_readAfterWrite hlba hn fun m hm => ?_
        exact hread [.write n buf] ops [n, m] rfl (by simp [hn, hm])
    refine ⟨hsafe, ih (h.step hlba hop hsafe) (fun op' h' => hops op' (by simp [h'])) ?_⟩
    intro pre post reads hsplit hreads p n q hp a ha
    exact hread (op :: pre) post reads (by rw [hsplit]; rfl) hreads (op :: p) n q
      (by rw [List.cons_append, hp]; rfl) a ha

end Stores

/-- The globals after a successful mount store what is on the disk. -/
lemma stores_init {s₀ : Kssfs} {lba : LONG} (hide : s₀.ide.Faithful)
    (hinit : (kssfsInit s₀ lba).1 = 1) :
    Stores lba (kssfsInit s₀ lba).2.clusterN (kssfsInit s₀ lba).2
      (clusterByte s₀.ide.disk lba) := by
  obtain ⟨-, hm⟩ := kssfsInit_mounted hide (lba_eq_zero_of_kssfsInit hinit) lba
  obtain ⟨hl, hi, -, hd⟩ := hm hinit
  refine ⟨⟨by rw [hd]; exact hide, rfl, fun _ hne => absurd hi hne⟩, hl, rfl, .inl hi, ?_⟩
  intro n _ a _
  rw [hd, Ide.tick_disk]

end Kssfs

/-- **When reads see what was written.** After a successful mount at `lba ≠ 0` on a working drive,
for calls with clusters in range: if every call of a run is safe, every read of the run sees the
latest contents. Moreover, every call is safe exactly when reads see the latest contents in
every run that goes on with reads after a part of the given one.

**Proof sketch.** Safe calls refine the store step by step (`Kssfs.Stores.readAfterWrite`), and
reads are always safe. Conversely, what an unsafe write spoils is found by two reads
(`Kssfs.Stores.along_safeCall`). -/
theorem kssfs_read_after_write (s₀ : Kssfs) (lba : LONG) (hide : s₀.ide.Faithful)
    (hlba : lba ≠ 0) (hinit : (kssfsInit s₀ lba).1 = 1) (ops : List ClusterOp)
    (hops : ∀ op ∈ ops, op.cluster < (kssfsInit s₀ lba).2.clusterN) :
    (Run.Along Kssfs.clusterStep Kssfs.SafeCall (kssfsInit s₀ lba).2 ops →
      KssfsReadAfterWrite (kssfsInit s₀ lba).2 (clusterByte s₀.ide.disk lba) ops) ∧
    (Run.Along Kssfs.clusterStep Kssfs.SafeCall (kssfsInit s₀ lba).2 ops ↔
      ∀ pre post (reads : List LONG), ops = pre ++ post →
        (∀ n ∈ reads, n < (kssfsInit s₀ lba).2.clusterN) →
        KssfsReadAfterWrite (kssfsInit s₀ lba).2 (clusterByte s₀.ide.disk lba)
          (pre ++ reads.map ClusterOp.read)) := by
  have hs := Kssfs.stores_init hide hinit
  refine ⟨hs.readAfterWrite hlba hops, fun hsafe pre post reads hsplit hreads => ?_,
    hs.along_safeCall hlba ops hops⟩
  rw [hsplit, Run.along_append] at hsafe
  refine hs.readAfterWrite hlba (fun op hop => ?_) ?_
  · rcases List.mem_append.mp hop with hop | hop
    · exact hops op (by rw [hsplit]; exact List.mem_append_left _ hop)
    · obtain ⟨n, hn, rfl⟩ := List.mem_map.mp hop
      exact hreads n hn
  · refine (Run.along_append _ _ _ _ _).mpr ⟨hsafe.1, (Run.along_iff_split _ _ _ _).mpr ?_⟩
    intro p op q hp
    have hop : op ∈ reads.map ClusterOp.read := by rw [hp]; simp
    obtain ⟨n, -, rfl⟩ := List.mem_map.mp hop
    trivial

/-- A drive that never fails, with a KSSFS header announcing two clusters at sector `1`. -/
def kssfsSampleIde : Ide where
  disk := fun a => if 512 ≤ a then ofList [0x26, 0x96, 0x01, 0x37, 2] (a - 512) else 0
  fault := fun _ => false
  calls := 0

/-- Safe writes, on that drive: cluster `0` is written before it is read, and
cluster `1` while cluster `0` is in the buffer. -/
theorem kssfs_read_after_write_sample :
    KssfsReadAfterWrite (kssfsInit (Kssfs.boot kssfsSampleIde) 1).2
      (clusterByte kssfsSampleIde.disk 1)
      [.write 0 fun _ => 1, .read 0, .write 1 fun _ => 2, .read 1, .read 0] :=
  (kssfs_read_after_write (Kssfs.boot kssfsSampleIde) 1 (fun _ => rfl) (by decide)
    (by decide +kernel) _
    (by
      intro op hop
      simp only [List.mem_cons, List.not_mem_nil, or_false] at hop
      rcases hop with rfl | rfl | rfl | rfl | rfl <;> exact (by decide +kernel))).1
    ⟨Kssfs.safeCall_write_of_le (by decide +kernel) (by decide +kernel)
        fun h => absurd h (by decide +kernel),
      trivial,
      Kssfs.safeCall_write_of_le (by decide +kernel) (by decide +kernel)
        fun h => absurd h (by decide +kernel),
      trivial, trivial, trivial⟩

/-- A write to the cluster in the buffer is not read back: cluster `0` is read, overwritten with
ones, and read again, and the buffer still has the zeros of the first read. -/
theorem kssfs_read_after_write_stale :
    kssfsSampleIde.Faithful ∧ (kssfsInit (Kssfs.boot kssfsSampleIde) 1).1 = 1 ∧
    0 < (kssfsInit (Kssfs.boot kssfsSampleIde) 1).2.clusterN ∧
    ¬KssfsReadAfterWrite (kssfsInit (Kssfs.boot kssfsSampleIde) 1).2
      (clusterByte kssfsSampleIde.disk 1) [.read 0, .write 0 fun _ => 1, .read 0] := by
  refine ⟨fun _ => rfl, by decide +kernel, by decide +kernel, fun h => ?_⟩
  have hstale := h [.read 0, .write 0 fun _ => 1] 0 [] rfl 0 (by decide)
  revert hstale
  decide +kernel

end Korolev
