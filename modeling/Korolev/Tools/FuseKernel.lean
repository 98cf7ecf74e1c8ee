import Korolev.Fs.KssfsLoad
import Korolev.Tools.FormatVolume

set_option relaxedAutoImplicit false
set_option autoImplicit false

/-!
# The mounted image and the kernel

An image that was worked on through the FUSE mount (`tools/kssfs_fuse.c`) is put on the disk of a
machine, and the kernel (`fs/kssfs.c`) loads files from it. The two have their own ways to find a
name: the mount compares bytes and the kernel words, the mount reads the image as it goes and the
kernel has a buffer that may be old, and neither treats free clusters as the other does. Still they
show the same files.

## Main definitions

* `Korolev.FileOnDisk` — a file of the host is on the disk.
* `Korolev.Volume.load` — loading a file of a volume.
* `Korolev.Seeks` — what the kernel looks for.
* `Korolev.KernelMounts` — the kernel has mounted a volume.
* `Korolev.ShowsSame` — a load gives what the mount shows.

## Main results

* `Korolev.KernelMounts.readFile` — the kernel loads the files of the volume.
* `Korolev.fuse_kernel_agree` — in every sequence of loads, after every run of operations on the
  mounted image, the kernel loads what the mount shows.
-/

namespace Korolev

open Bytes CStr Fuse

/-- The file is on the disk from sector `lba` on. -/
def FileOnDisk (disk : ℕ → BYTE) (lba : LONG) (f : Host.File) : Prop :=
  ∀ a < f.size, disk (512 * lba.toNat + a) = f.byte a

/-- Loading a slot of a volume to `dest`, if there is one: the result, and the memory at `dest`. -/
def Volume.loadSlot (v : Volume) (dest : ℕ → BYTE) : Option ℕ → ℤ × (ℕ → BYTE)
  | some i => (1, blit dest 0 (v.slot i).len (v.slot i).data)
  | none => (0, dest)

/-- Loading a file of a volume. -/
def Volume.load (v : Volume) (name : List BYTE) (dest : ℕ → BYTE) : ℤ × (ℕ → BYTE) :=
  v.loadSlot dest (v.lookup name)

/-! ## The kernel -/

/-- The kernel has mounted a disk whose clusters hold the slots of a volume. -/
structure KernelMounts (disk : ℕ → BYTE) (v : Volume) (t : Kssfs) : Prop where
  inv : t.toClusterCache.Inv disk
  lba_ne : t.lba ≠ 0
  clusterN_eq : t.clusterN.toNat = v.length
  slot : ∀ i : LONG, (hi : i.toNat < v.length) → SlotAt (clusterByte disk t.lba i) v[i.toNat]

section Kernel

variable {disk : ℕ → BYTE} {v : Volume} {t : Kssfs}

lemma KernelMounts.readCluster (h : KernelMounts disk v t) (n : LONG) :
    KernelMounts disk v (kssfsReadCluster t n) := by
  refine ⟨h.inv.readCluster n, ?_, ?_, ?_⟩
  · rw [kssfsReadCluster_lba]
    exact h.lba_ne
  · rw [kssfsReadCluster_clusterN]
    exact h.clusterN_eq
  · rw [kssfsReadCluster_lba]
    exact h.slot

/-- A load keeps what every reading of a cluster keeps. -/
lemma kssfsReadScan_invariant {I : Kssfs → Prop} (hread : ∀ t n, I t → I (kssfsReadCluster t n))
    (dest filename : ℕ → BYTE) (n : ℕ) : ∀ (i : LONG) (t : Kssfs), I t →
      I (kssfsReadScan dest filename n i t).2.2 := by
  induction n with
  | zero => exact fun i t h => h
  | succ n ih =>
    intro i t h
    rw [kssfsReadScan]
    split_ifs
    · exact hread t i h
    · exact ih (i + 1) _ (hread t i h)

lemma kssfsReadFile_invariant {I : Kssfs → Prop} (hread : ∀ t n, I t → I (kssfsReadCluster t n))
    (dest filename : ℕ → BYTE) (h : I t) : I (kssfsReadFile t dest filename).2.2 := by
  rw [kssfsReadFile]
  split_ifs
  · exact h
  · exact kssfsReadScan_invariant hread dest filename _ 0 t h

/-- What the lookup sees is on the disk: an old buffer has the cluster it is said to have. -/
lemma KernelMounts.seen (h : KernelMounts disk v t) {i : LONG} (hi : i.toNat < v.length) :
    SlotAt (t.seen i) v[i.toNat] := by
  refine (h.slot i hi).congr fun a ha => ?_
  unfold Kssfs.seen
  split_ifs with hhit
  · obtain ⟨rfl, hidx⟩ := hhit
    have hne : t.clusterIndex ≠ 0xffffffff := by
      rw [hidx]
      decide
    rw [h.inv.coherent h.lba_ne hne a ha, hidx]
  · rw [h.inv.disk_eq]

/-- The kernel takes the name of a cluster that holds a slot for the one it looks for iff it is the
key. Without a key it never does. -/
def Seeks (filename : ℕ → BYTE) (key : Option (List BYTE)) : Prop :=
  ∀ {m : ℕ → BYTE} {s : Slot}, SlotAt m s →
    (strncmp (kssfsFilename m) filename 256 = 0 ↔ some s.name.bytes = key)

/-- The bytes behind a name of `l` bytes let it be found: one of the others in the word of its
terminator is not `0`, or the first that is not, behind that word, is not the first one of a
word. -/
def Heard (filename : ℕ → BYTE) (l : ℕ) : Prop :=
  (∃ k, l < k ∧ k < (l / 4 + 1) * 4 ∧ filename k ≠ 0) ∨ QuietFrom filename 256 (l / 4 + 1)

/-- Comparing is symmetric as far as equality goes. -/
lemma strncmp_eq_zero_comm {p q : ℕ → BYTE} {len : ℕ} :
    strncmp p q len = 0 ↔ strncmp q p len = 0 := by
  obtain hall | ⟨d, hd, hfirst⟩ := forall_eq_or_firstDiff p q len
  · exact iff_of_true (strncmp_eq_zero_of_forall hall)
      (strncmp_eq_zero_of_forall fun j hj => (hall j hj).symm)
  · have hfirst' : FirstDiff q p d := ⟨hfirst.1.symm, fun j hj => (hfirst.2 j hj).symm⟩
    have hends : (∃ j < d, d / 4 * 4 ≤ j ∧ p j = 0) ↔ ∃ j < d, d / 4 * 4 ≤ j ∧ q j = 0 :=
      exists_congr fun j => and_congr_right fun hj => by rw [hfirst.2 j hj]
    have hne : byteDiff (p d) (q d) ≠ 0 := mt byteDiff_eq_zero.mp hfirst.1
    have hne' : byteDiff (q d) (p d) ≠ 0 := mt byteDiff_eq_zero.mp hfirst'.1
    have hif : ∀ {P : Prop} [Decidable P] {x : ℤ}, x ≠ 0 → ((if P then 0 else x) = 0 ↔ P) := by
      intro P _ x hx
      split_ifs with hP
      · exact iff_of_true rfl hP
      · exact iff_of_false hx hP
    rw [strncmp_of_firstDiff hd hfirst, strncmp_of_firstDiff hd hfirst', hif hne, hif hne']
    exact or_congr_right (and_congr_right fun _ => hends)

/-- **What the kernel looks for** is the name it is given, if that can be found at all. -/
lemma seeks_of_isString {filename : ℕ → BYTE} {name : List BYTE} (hstr : IsString filename name)
    (hlen : name.length ≤ 255) [Decidable (Heard filename name.length)] :
    Seeks filename (if Heard filename name.length then some name else none) := by
  intro m s h
  have hcell : ∀ k ≤ name.length, filename k = ofList name k := by
    intro k hk
    obtain hlt | rfl := Nat.lt_or_eq_of_le hk
    · rw [hstr.cell k hlt, ofList, List.getD_eq_getElem _ _ hlt]
    · rw [hstr.terminator, ofList, List.getD_eq_default _ _ le_rfl]
  -- a name that is found is the right one
  have hname : strncmp (kssfsFilename m) filename 256 = 0 → s.name.bytes = name := by
    intro h0
    have hkey : EqUpTo 256 filename (ofList name) :=
      EqUpTo.of_terminator (k := name.length) (fun j hj => hcell j hj) hstr.terminator
    have heq : EqUpTo 256 (ofList s.name.bytes) (ofList name) :=
      ((EqUpTo.of_forall fun k hk => (h.name k hk).symm).trans
        (eqUpTo_of_strncmp_eq_zero (by omega) h0)).trans hkey
    exact ofList_injOn s.name.nul hstr.notMem s.name.length_le hlen
      ((eqUpTo_iff_of_padded (padded_ofList s.name.nul 256) (padded_ofList hstr.notMem 256)).mp heq)
  have hheard : s.name.bytes = name →
      (strncmp (kssfsFilename m) filename 256 = 0 ↔ Heard filename name.length) := by
    intro hbytes
    have hfile : ∀ k < 256, kssfsFilename m k = ofList name k := fun k hk => hbytes ▸ h.name k hk
    rw [strncmp_eq_zero_comm]
    refine strncmp_eq_zero_iff_of_terminator (w := 64) (by omega) (by omega)
      (fun j hj => ⟨?_, hstr.ne_zero hj⟩) hstr.terminator fun k hk hlt => ?_
    · rw [hcell j hj.le, hfile j (by omega)]
    · rw [hfile k hlt]
      exact List.getD_eq_default _ _ hk
  split_ifs with hlisten
  · rw [Option.some_inj]
    exact ⟨hname, fun hbytes => (hheard hbytes).mpr hlisten⟩
  · exact iff_of_false (fun h0 => hlisten ((hheard (hname h0)).mp h0)) not_false

/-- The cluster that a load finds is the slot that a lookup of the key finds. -/
lemma KernelMounts.finds_iff (h : KernelMounts disk v t) {filename : ℕ → BYTE}
    {key : Option (List BYTE)} (hkey : Seeks filename key) {i : LONG} :
    t.Finds filename i ↔ key.bind v.lookup = some i.toNat := by
  have hnamed : ∀ j : LONG, (hj : j.toNat < v.length) →
      (t.Named filename j ↔ some v[j.toNat].name.bytes = key) := fun j hj => hkey (h.seen hj)
  cases key with
  | none =>
    rw [Kssfs.Finds, UInt32.lt_iff_toNat_lt, h.clusterN_eq]
    refine iff_of_false (fun hfinds => ?_) (by simp)
    exact Option.some_ne_none _ ((hnamed i hfinds.1).mp hfinds.2.1)
  | some name =>
    simp only [Option.some_inj] at hnamed
    rw [Option.bind_some, Volume.lookup_eq_some_iff, Kssfs.Finds, UInt32.lt_iff_toNat_lt,
      h.clusterN_eq]
    constructor
    · rintro ⟨hi, hname, hbefore⟩
      refine ⟨hi, (hnamed i hi).mp hname, fun j hj hjname => ?_⟩
      have hval : (UInt32.ofNat j).toNat = j :=
        toNat_ofNat_of_lt (by have := i.toNat_lt; omega)
      refine hbefore (UInt32.ofNat j) (UInt32.lt_iff_toNat_lt.mpr (by omega)) ?_
      rw [hnamed _ (by omega)]
      simpa only [hval] using hjname
    · rintro ⟨hi, hname, hbefore⟩
      refine ⟨hi, (hnamed i hi).mpr hname, fun j hj hjname => ?_⟩
      have hlt := UInt32.lt_iff_toNat_lt.mp hj
      exact hbefore j.toNat hlt ((hnamed j (by omega)).mp hjname)

/-- **The kernel loads the files of the volume**, and stays mounted. -/
lemma KernelMounts.readFile (h : KernelMounts disk v t) {filename : ℕ → BYTE}
    {key : Option (List BYTE)} (hkey : Seeks filename key) (dest : ℕ → BYTE) :
    ((kssfsReadFile t dest filename).1, (kssfsReadFile t dest filename).2.1) =
      v.loadSlot dest (key.bind v.lookup) ∧
    KernelMounts disk v (kssfsReadFile t dest filename).2.2 := by
  refine ⟨?_, kssfsReadFile_invariant (fun t n ht => ht.readCluster n) dest filename h⟩
  have hbound : ∀ {i : ℕ}, key.bind v.lookup = some i → i < v.length := by
    intro i hi
    obtain ⟨name, -, hname⟩ := Option.bind_eq_some_iff.mp hi
    exact Volume.lookup_lt hname
  rcases kssfsReadFile_cases h.inv.faithful dest filename with
    ⟨h0 | hnone, hres, hdest⟩ | ⟨j, -, hj, hres, hdest⟩
  · exact absurd h0 h.lba_ne
  · have hmiss : key.bind v.lookup = none := by
      by_contra hne
      obtain ⟨i, hi⟩ := Option.ne_none_iff_exists'.mp hne
      have hlt : i < v.length := hbound hi
      have hval : (UInt32.ofNat i).toNat = i := by
        have hN := t.clusterN.toNat_lt
        exact toNat_ofNat_of_lt (by have := h.clusterN_eq; omega)
      have hfinds := (h.finds_iff hkey (i := UInt32.ofNat i)).mpr (by rw [hval]; exact hi)
      exact hnone _ hfinds.1 hfinds.2.1
    rw [hres, hdest, hmiss]
    rfl
  · have hfound := (h.finds_iff hkey).mp hj
    have hlt := hbound hfound
    have hslot := h.seen hlt
    have hle := v[j.toNat].len_le
    rw [hres, hdest, hfound, Volume.loadSlot]
    rw [Volume.slot_of_lt hlt, hslot.len]
    refine congrArg (Prod.mk 1) (blit_congr fun k hk => ?_)
    rw [Kssfs.bufAt, if_pos (by omega), hslot.data k (by omega)]

/-! ## Mounting by the kernel -/

/-- The kernel's clusters of an image on the disk are those of the image: the header sector is
skipped, and the strides agree. -/
lemma clusterByte_of_fileOnDisk {f : Host.File} {lba : LONG} (hdisk : FileOnDisk disk lba f)
    (hwrap : lba.toNat + 1 + 16 * v.length ≤ 2 ^ 32) (hsize : 512 + 8192 * v.length ≤ f.size)
    {i : LONG} (hi : i.toNat < v.length) {a : ℕ} (ha : a < 8192) :
    clusterByte disk lba i a = cluster f i.toNat a := by
  have hsec : (clstrLba lba i + UInt32.ofNat (a / 512)).toNat =
      lba.toNat + 1 + i.toNat * 16 + a / 512 := by
    simp only [clstrLba, UInt32.toNat_add, UInt32.toNat_mul, UInt32.toNat_ofNat,
      UInt32.toNat_ofNat']
    omega
  rw [clusterByte, sectorByte, hsec, cluster, ← hdisk _ (by omega)]
  congr 1
  omega

/-- The kernel mounts an image that represents a volume. -/
lemma kssfsInit_kernelMounts {f : Host.File} {lba : LONG} (h : Represents f v)
    (hide : t.ide.Faithful) (ht : t.lba = 0) (hlba : lba ≠ 0)
    (hwrap : lba.toNat + 1 + 16 * v.length ≤ 2 ^ 32) (hdisk : FileOnDisk t.ide.disk lba f) :
    (kssfsInit t lba).1 = 1 ∧ KernelMounts t.ide.disk v (kssfsInit t lba).2 := by
  have hword : ∀ o ≤ 508, le32 t.ide.disk (512 * lba.toNat + o) = le32 f.byte o := by
    intro o ho
    have hsize := h.size
    exact le32_congr fun k hk => by rw [Nat.add_assoc, hdisk _ (by omega)]
  obtain ⟨hsig, hmount⟩ := kssfsInit_mounted hide ht lba
  have hinit : (kssfsInit t lba).1 = 1 := hsig.mpr ((hword 0 (by omega)).trans h.signature)
  obtain ⟨hl, hidx, hclusters, hdrive⟩ := hmount hinit
  refine ⟨hinit, ⟨?_, ?_, fun _ hne => absurd hidx hne⟩, ?_, ?_, fun i hi => ?_⟩
  · rw [hdrive]
    exact hide
  · rw [hdrive, Ide.tick_disk]
  · rw [hl]
    exact hlba
  · rw [hclusters, hword 4 (by omega), h.count]
  · rw [hl]
    exact (h.slot _ hi).congr fun a ha => clusterByte_of_fileOnDisk hdisk hwrap h.size hi ha

end Kernel

/-! ## Agreement -/

/-- What a load gives is what the mount shows at the path: it succeeds iff there are attributes, and
then it has as many bytes as they say, which are those that are read through the handle of the
file; otherwise nothing is stored. -/
structure ShowsSame (e : Env) (s : Mount) (p : Path) (dest : ℕ → BYTE)
    (r : ℤ × (ℕ → BYTE) × Kssfs) : Prop where
  found : (kssfsGetattr e s p.mem).1 = 0 → r.1 = 1 ∧
    r.2.1 = (kssfsRead (kssfsOpen s p.mem 0).2.2 (kssfsOpen s p.mem 0).2.1 dest
      (UInt64.ofNat (kssfsGetattr e s p.mem).2.1.size) 0).2.1
  missing : (kssfsGetattr e s p.mem).1 ≠ 0 → r.1 = 0 ∧ r.2.1 = dest

/-- Loading a file of the volume is what the mount shows of it. -/
lemma Fuse.Mounts.showsSame {s : Mount} {v : Volume} (h : Mounts s v) (e : Env) (p : Path)
    {dest : ℕ → BYTE} {r : ℤ × (ℕ → BYTE) × Kssfs}
    (hr : (r.1, r.2.1) = v.load p.name.bytes dest) : ShowsSame e s p dest r := by
  obtain ⟨hstat, -⟩ := h.getattr e p
  obtain ⟨hopen, hopened⟩ := h.openFile p 0
  have hneg : (-ENOENT.toNat : ℤ) ≠ 0 := by decide
  cases hfind : v.lookup p.name.bytes with
  | none =>
    simp only [Volume.statReply, hfind, Reply.stat.injEq] at hstat
    simp only [Volume.load, Volume.loadSlot, hfind, Prod.mk.injEq] at hr
    exact ⟨fun h0 => absurd (hstat.1.symm.trans h0) hneg, fun _ => hr⟩
  | some i =>
    have hi := Volume.lookup_lt hfind
    have hlen := (v.slot i).len_le
    have hle := h.represents.length_le
    simp only [Volume.statReply, hfind, Reply.stat.injEq, Volume.fileStat] at hstat
    simp only [Volume.load, Volume.loadSlot, hfind, Prod.mk.injEq] at hr
    simp only [Mount.reply, Volume.reply, hfind, Reply.handle.injEq] at hopen
    simp only [Volume.step, hfind, Option.isSome_some, if_true] at hopened
    have hsize : (kssfsGetattr e s p.mem).2.1.size = (v.slot i).len := by rw [hstat.2]
    have hnat : (UInt64.ofNat (v.slot i).len).toNat = (v.slot i).len := by
      rw [UInt64.toNat_ofNat', Nat.mod_eq_of_lt (by omega)]
    have hhandle : (UInt64.ofNat i).toNat = i := by
      rw [UInt64.toNat_ofNat', Nat.mod_eq_of_lt (by omega)]
    have hin : (0 : QWORD).toNat + (UInt64.ofNat (v.slot i).len).toNat ≤ 7680 := by
      rw [hnat]
      exact (Nat.zero_add _).trans_le hlen
    have hread := hopened.read (hhandle.trans_lt hi) dest hin
    simp only [Mount.reply, Volume.reply, Reply.bytes.injEq, hnat, hhandle] at hread
    refine ⟨fun _ => ⟨hr.1, ?_⟩, fun hne => absurd hstat.1 hne⟩
    rw [hr.2, hsize, hopen.2, hread.2]
    exact blit_congr fun k _ => by rw [UInt64.toNat_zero, Nat.zero_add]

/-- A load that finds nothing does not show a file that the mount shows. -/
lemma ShowsSame.missing_of_res {e : Env} {s : Mount} {p : Path} {dest : ℕ → BYTE}
    {r : ℤ × (ℕ → BYTE) × Kssfs} (h : ShowsSame e s p dest r) (hr : r.1 = 0) :
    (kssfsGetattr e s p.mem).1 ≠ 0 := by
  intro h0
  have hone := (h.found h0).1
  rw [hr] at hone
  exact absurd hone (by decide)

/-- **When the kernel loads what the mount shows.** Take any mounted image that represents a volume
and any run of operations on it that stay inside of their cluster, and put the image on a disk where
the sector numbers do not wrap around. The kernel mounts it, and in every sequence of loads, each by
the name of a path gives what the mount shows at the path iff the bytes behind the name let it be
found or the mount shows nothing.

**Proof sketch.** The image represents some volume at the end of the run (`Fuse.Mounts.exists_run`);
with a key that is the name or nothing (`seeks_of_isString`) the kernel loads from that volume
what a lookup of the key finds (`KernelMounts.readFile`), and the mount shows what a lookup of the
name finds (`Fuse.Mounts.showsSame`). -/
theorem fuse_kernel_agree {s : Mount} {v : Volume} (h : Mounts s v) {ops : List VolumeOp}
    (hops : ∀ op ∈ ops, op.Valid v.length) {t : Kssfs} (hide : t.ide.Faithful) (ht : t.lba = 0)
    {lba : LONG} (hlba : lba ≠ 0) (hwrap : lba.toNat + 1 + 16 * v.length ≤ 2 ^ 32)
    (hdisk : FileOnDisk t.ide.disk lba (Run.run Mount.volumeStep s ops).stream.file)
    (calls : List ReadCall) (e : Env) :
    let s' := Run.run Mount.volumeStep s ops
    (kssfsInit t lba).1 = 1 ∧
    Run.Along readFileStep (fun t c => ∀ p : Path, IsString c.filename p.name.bytes →
      (ShowsSame e s' p c.dest (kssfsReadFile t c.dest c.filename) ↔
        Heard c.filename p.name.bytes.length ∨ (kssfsGetattr e s' p.mem).1 ≠ 0))
      (kssfsInit t lba).2 calls := by
  intro s'
  classical
  obtain ⟨v', hlen, -, hend⟩ := h.exists_run hops
  obtain ⟨hinit, hmounted⟩ := kssfsInit_kernelMounts hend.represents hide ht hlba
    (by rw [hlen]; exact hwrap) hdisk
  refine ⟨hinit, Run.along_of_invariant_of_forall (I := KernelMounts t.ide.disk v')
    (fun t c ht => kssfsReadFile_invariant (fun t n ht => ht.readCluster n) c.dest c.filename ht)
    (fun t c ht p hp => ?_) hmounted calls⟩
  obtain ⟨hread, -⟩ := ht.readFile (seeks_of_isString hp p.name.length_le) c.dest
  by_cases hheard : Heard c.filename p.name.bytes.length
  · rw [if_pos hheard, Option.bind_some] at hread
    exact iff_of_true (hend.showsSame e p hread) (.inl hheard)
  · rw [if_neg hheard, Option.bind_none] at hread
    obtain ⟨hres, hdest⟩ := Prod.mk.inj hread
    rw [or_iff_right hheard]
    exact ⟨fun hsame => hsame.missing_of_res hres,
      fun hne => ⟨fun h0 => absurd h0 hne, fun _ => ⟨hres, hdest⟩⟩⟩

/-- A kernel before the mount, with a file of the host at sector 1 of its drive. -/
def kernelWithFile (f : Host.File) : Kssfs := .boot ⟨fun a => f.byte (a - 512), fun _ => false, 0⟩

lemma kernelWithFile_onDisk (f : Host.File) : FileOnDisk (kernelWithFile f).ide.disk 1 f := by
  intro a _
  show f.byte (512 + a - 512) = f.byte a
  rw [Nat.add_sub_cancel_left]

/-- Whether one of the sample names is heard. -/
lemma heard_sampleName : Heard (ofList [98]) 1 := by
  refine .inr fun c hc hlt _ => List.getD_eq_default _ _ ?_
  simp only [List.length_singleton]
  omega

lemma not_heard_sampleName : ¬ Heard (ofList [97, 0, 0, 0, 7]) 1 := by
  rintro (⟨k, hk, hlt, hne⟩ | hquiet)
  · obtain rfl | rfl : k = 2 ∨ k = 3 := by omega
    · exact hne rfl
    · exact hne rfl
  · have hbyte := hquiet 1 le_rfl (by omega) fun j hj hlt => absurd hj (by omega)
    revert hbyte
    decide

/-- A file `b` is created through the mount and written to. The kernel loads it, but not the file
`a`, by a name that has another byte behind the word of its terminator. -/
theorem fuse_kernel_agree_two_files :
    let s' := Run.run Mount.volumeStep sampleMount
      [.create samplePath' 0, .write 1 (fun _ => 7) 3 0]
    let t := (kssfsInit (kernelWithFile s'.stream.file) 1).2
    let c : ReadCall := ⟨fun _ => 0, [98], ofList [98]⟩
    let c' : ReadCall := ⟨fun _ => 0, [97], ofList [97, 0, 0, 0, 7]⟩
    (kssfsInit (kernelWithFile s'.stream.file) 1).1 = 1 ∧
    ShowsSame ⟨0, 0, 0⟩ s' samplePath' c.dest (kssfsReadFile t c.dest c.filename) ∧
    ¬ ShowsSame ⟨0, 0, 0⟩ s' samplePath c'.dest
      (kssfsReadFile (readFileStep t c) c'.dest c'.filename) := by
  intro s' t c c'
  let v := formatVolume (fun _ => 0) [sampleFile]
  let ops := [VolumeOp.create samplePath' 0, .write 1 (fun _ => 7) 3 0]
  have hlen : v.length = 256 := length_formatVolume (fun _ => 0) (by decide)
  have hops : ∀ op ∈ ops, op.Valid v.length := by
    intro op hop
    rw [hlen]
    simp only [ops, List.mem_cons, List.not_mem_nil, or_false] at hop
    obtain rfl | rfl := hop
    · trivial
    · exact ⟨by decide, by decide⟩
  have hwrap : (1 : LONG).toNat + 1 + 16 * v.length ≤ 2 ^ 32 := by
    rw [hlen]
    decide
  obtain ⟨hinit, hfirst, hsecond, -⟩ := fuse_kernel_agree sampleMount_mounts hops
    (t := kernelWithFile s'.stream.file) (fun _ => rfl) rfl (by decide) hwrap
    (kernelWithFile_onDisk _) [c, c'] ⟨0, 0, 0⟩
  -- the mount shows the file `a`
  have hshown : (kssfsGetattr ⟨0, 0, 0⟩ s' samplePath.mem).1 = 0 := by
    have hserved : Run.Along Volume.step (fun v op => op.Served v) v ops :=
      ⟨trivial, trivial, trivial⟩
    obtain ⟨v', -, hrun, hend⟩ := sampleMount_mounts.exists_run hops
    obtain rfl := hrun hserved
    have hlookup : (Run.run Volume.step (formatVolume (fun _ => 0) [sampleFile]) ops).lookup
        samplePath.name.bytes = some 0 := by decide +kernel
    have hstat := (hend.getattr ⟨0, 0, 0⟩ samplePath).1
    rw [Volume.statReply, hlookup] at hstat
    exact (Reply.stat.inj hstat).1
  have hb : IsString (ofList [98]) [98] := ⟨by decide, by decide, rfl⟩
  have ha : IsString (ofList [97, 0, 0, 0, 7]) [97] := ⟨by decide, by decide, rfl⟩
  refine ⟨hinit, (hfirst samplePath' hb).mpr (.inl heard_sampleName), fun hsame => ?_⟩
  obtain hheard | hmiss := (hsecond samplePath ha).mp hsame
  · exact not_heard_sampleName hheard
  · exact hmiss hshown

end Korolev
