import Korolev.Fs.Kfs2Read
import Korolev.Fs.Kssfs
import Mathlib.Data.Nat.Find

set_option relaxedAutoImplicit false
set_option autoImplicit false

/-!
# What a read of KFS2 depends on

A read should depend on the file and on nothing else. `kfs2_read_byte` has two ways to cluster `0`
of the file system, which is not the file's: the walk starts there if the uninitialised variable
`clstr_n` happens to be the number of links, and it follows the end of the file, which is marked by
the link `0`, as if it were a link.

Both are statements about two calls: with different values of the variable, and on different disks.
The bytes that are fetched from below the buffer count as different unless both calls have the same
cluster in the buffer, for the globals of the file system may be what is there.

## Main definitions

* `Korolev.Kept` — the walk has not started over since the first byte.
* `Korolev.SameFetch` — a byte is the same with either of two clusters in the buffer.
* `Korolev.Initialised` — a read returns the same for all values of the variable.
* `Korolev.FileHas` — the clusters of a file, up to the one without a link.
* `Korolev.SameFile` — two disks agree on the header and on the clusters of the file.
* `Korolev.Isolated` — a read returns the same on all disks that agree so.

## Main results

* `Korolev.kfs2Reached_first` — where the walk of a byte starts, and how many links it follows.
* `Korolev.kfs2_read_byte_initialised_iff` — when a read does not depend on the uninitialised
  variable.
* `Korolev.kfs2_read_byte_isolated` — when it does not depend on the clusters of other files.
-/

namespace Korolev

open Bytes

/-! ## Where walks start -/

/-- The bytes behind the first one up to byte `k` are in cluster `0` of the file, so that the walk
has not started over. -/
def Kept (off : LONG) (k : ℕ) : Prop :=
  ∀ j < k, kfs2ByteClstr (off + UInt32.ofNat (j + 1)) = 0

instance (off : LONG) (k : ℕ) : Decidable (Kept off k) := inferInstanceAs (Decidable (∀ _ < k, _))

/-- The number of links followed for byte `k`. -/
def kfs2Links (off : LONG) : ℕ → LONG
  | 0 => kfs2ByteClstr off
  | k + 1 =>
    let t := kfs2ByteClstr (off + UInt32.ofNat (k + 1))
    if t = 0 then kfs2Links off k else t

/-- The cluster the walk for byte `k` starts at. -/
def kfs2Source (start clstrN₀ off : LONG) (k : ℕ) : LONG :=
  if kfs2ByteClstr off = clstrN₀ ∧ Kept off k then 0 else start

lemma kept_succ {off : LONG} {k : ℕ} :
    Kept off (k + 1) ↔ Kept off k ∧ kfs2ByteClstr (off + UInt32.ofNat (k + 1)) = 0 :=
  Nat.forall_lt_succ_right

/-- As long as the walk has not started over, it is that of the first byte. -/
lemma kfs2Links_of_kept {off : LONG} {k : ℕ} (h : Kept off k) :
    kfs2Links off k = kfs2ByteClstr off := by
  induction k with
  | zero => rfl
  | succ k ih =>
    rw [kept_succ] at h
    rw [kfs2Links]
    exact (if_pos h.2).trans (ih h.1)

/-- **Where the walk for a byte starts, and how many links it follows.** -/
lemma kfs2Reached_first (disk : ℕ → BYTE) (lba clusterN start clstrN₀ off : LONG) (k : ℕ) :
    kfs2Reached disk lba clusterN start off (kfs2First disk lba clusterN start clstrN₀ off) k =
      kfs2Follow disk lba clusterN (kfs2Source start clstrN₀ off k) (kfs2Links off k).toNat := by
  induction k with
  | zero =>
    have hkept : Kept off 0 := fun j hj => absurd hj (Nat.not_lt_zero j)
    rw [kfs2Reached, kfs2First, kfs2Source, kfs2Links, ite_not]
    simp only [hkept, and_true]
  | succ k ih =>
    rw [kfs2Reached, kfs2Links, kfs2Source]
    by_cases ht : kfs2ByteClstr (off + UInt32.ofNat (k + 1)) = 0
    · rw [if_pos ht, ih, kfs2Source]
      simp only [kept_succ, ht, and_true, if_true]
    · rw [if_neg ht]
      simp only [kept_succ, ht, and_false, if_false]

/-- A byte that is fetched at an index is the same with cluster `c` of one disk in the buffer and
with cluster `c'` of another one, whatever is below the buffer: it is inside of the buffer and the
same in both, or the two clusters are the same altogether. -/
def SameFetch (disk disk' : ℕ → BYTE) (lba : LONG) (idx : ℤ) (c c' : LONG) : Prop :=
  (c = c' ∧ ∀ a < 8192, clusterByte disk lba c a = clusterByte disk' lba c' a) ∨
  0 ≤ idx ∧ clusterByte disk lba c idx.toNat = clusterByte disk' lba c' idx.toNat

/-- Such a byte is in the buffer at the same place. -/
lemma SameFetch.cell {disk disk' : ℕ → BYTE} {lba : LONG} {idx : ℤ} {c c' : LONG}
    (h : SameFetch disk disk' lba idx c c') (hidx : idx < 8192) :
    clusterByte disk lba c idx.toNat = clusterByte disk' lba c' idx.toNat := by
  obtain ⟨-, hall⟩ | ⟨-, hcell⟩ := h
  · exact hall _ (by omega)
  · exact hcell

/-- Fetching a byte gives the same whatever is below the buffer iff it is the same in this sense. -/
lemma kfs2Fetched_eq_iff {disk disk' : ℕ → BYTE} {lba : LONG} {buf : ℕ → BYTE} {i c c' : LONG} :
    (∀ stray, kfs2Fetched disk lba buf stray i c = kfs2Fetched disk' lba buf stray i c') ↔
      SameFetch disk disk' lba (kfs2ByteIndex i) c c' := by
  have hlt := kfs2ByteIndex_lt i
  constructor
  · intro h
    by_cases hneg : kfs2ByteIndex i < 0
    · simp only [kfs2Fetched, if_pos hneg] at h
      refine .inl ⟨?_, fun a ha => ?_⟩
      · -- the index may be what is below the buffer
        have hindex := h fun b _ _ _ => if b = c then 1 else 0
        rw [if_pos rfl] at hindex
        by_contra hne
        rw [if_neg (Ne.symm hne)] at hindex
        exact absurd hindex (by decide)
      · have hcell := h fun _ buf _ _ => buf a
        simpa only [kfs2Loaded, if_pos ha] using hcell
    · have hcell := h fun _ _ _ _ => 0
      simp only [kfs2Fetched, if_neg hneg] at hcell
      exact .inr ⟨by omega, hcell⟩
  · intro h stray
    unfold kfs2Fetched
    split_ifs with hneg
    · obtain ⟨rfl, hall⟩ | ⟨hpos, -⟩ := h
      · have hloaded : kfs2Loaded disk lba buf c = kfs2Loaded disk' lba buf c := by
          funext a
          unfold kfs2Loaded
          split_ifs with ha
          · exact hall a ha
          · rfl
        rw [hloaded]
      · omega
    · exact h.cell hlt

/-- Two reads return the same bytes, whatever is below the buffer, iff every byte is the same with
the two clusters it is fetched from. -/
lemma kfs2Bytes_eq_iff {disk disk' : ℕ → BYTE} {lba clusterN start clstrN₀ clstrN₁ off : LONG}
    {buf : ℕ → BYTE} {n : ℕ} :
    (∀ stray, kfs2Bytes disk lba clusterN buf start clstrN₀ stray off n =
        kfs2Bytes disk' lba clusterN buf start clstrN₁ stray off n) ↔
      ∀ k < n, SameFetch disk disk' lba (kfs2ByteIndex (off + UInt32.ofNat k))
        (kfs2Follow disk lba clusterN (kfs2Source start clstrN₀ off k) (kfs2Links off k).toNat)
        (kfs2Follow disk' lba clusterN (kfs2Source start clstrN₁ off k)
          (kfs2Links off k).toNat) := by
  simp only [kfs2Bytes, List.map_inj_left, List.mem_range, kfs2Reached_first]
  exact ⟨fun h k hk => kfs2Fetched_eq_iff.mp fun stray => h stray k hk,
    fun h stray k hk => kfs2Fetched_eq_iff.mpr (h k hk) stray⟩

/-- A single byte that is fetched inside of the buffer. -/
lemma kfs2Bytes_one {disk : ℕ → BYTE} {lba clusterN start clstrN₀ off : LONG} {buf : ℕ → BYTE}
    {stray : Kfs2Below} (hidx : 0 ≤ kfs2ByteIndex off) :
    kfs2Bytes disk lba clusterN buf start clstrN₀ stray off 1 =
      [clusterByte disk lba (kfs2First disk lba clusterN start clstrN₀ off)
        (kfs2ByteIndex off).toNat] := by
  show [kfs2Fetched disk lba buf stray (off + UInt32.ofNat 0) _] = _
  rw [add_ofNat_zero, kfs2Fetched, if_neg (by omega), kfs2Reached]

/-! ## The uninitialised variable -/

/-- The count and the bytes of a read are the same for all initial values of the uninitialised
variable, whatever is below the buffer. -/
def Initialised (s : Kfs2) (file n off : LONG) : Prop :=
  ∀ stray clstrN₀ clstrN₁,
    (kfs2ReadByte s clstrN₀ stray file n off).1 = (kfs2ReadByte s clstrN₁ stray file n off).1 ∧
    (kfs2ReadByte s clstrN₀ stray file n off).2.1 = (kfs2ReadByte s clstrN₁ stray file n off).2.1

/-- **When a read does not depend on uninitialised memory.** In every state that is reached from
boot on a working drive, with a file system mounted: for every open file and every read, the count
and the bytes are the same for all initial values of `clstr_n` iff for every byte for which the walk
has not started over, the links from cluster `0` lead to the same cluster as those from the first
cluster of the file, or the byte is inside of the buffer and the same in these two clusters.

**Proof sketch.** The variable decides at which of the two clusters the walk for the first byte
starts, and through it the walks of those bytes (`kfs2Reached_first`). The number of links is one
value for which it starts at cluster `0`, and every other value one for which it does not. -/
theorem kfs2_read_byte_initialised_iff (ide : Ide) (hide : ide.Faithful) (ops : List Kfs2Op)
    (file n off : LONG) :
    let s := Run.run Kfs2.step (Kfs2.boot ide) ops
    let start := (s.handles file.toNat).startclstr
    let t := (kfs2ByteClstr off).toNat
    s.lba ≠ 0 → file.toNat < KFS2_MAX_FILES → (s.handles file.toNat).Open →
    (Initialised s file n off ↔
      ∀ k < (off + n).toNat - off.toNat, Kept off k →
        kfs2Follow ide.disk s.lba s.clusterN 0 t = kfs2Follow ide.disk s.lba s.clusterN start t ∨
        0 ≤ kfs2ByteIndex (off + UInt32.ofNat k) ∧
        clusterByte ide.disk s.lba (kfs2Follow ide.disk s.lba s.clusterN 0 t)
            (kfs2ByteIndex (off + UInt32.ofNat k)).toNat =
          clusterByte ide.disk s.lba (kfs2Follow ide.disk s.lba s.clusterN start t)
            (kfs2ByteIndex (off + UInt32.ofNat k)).toNat) := by
  intro s start t hlba hfile hopen
  obtain ⟨hinv, hinside⟩ : s.Inv ide.disk ∧ s.StartsInside := Kfs2.reachable hide ops
  have hread := fun clstrN₀ stray => kfs2ReadByte_eq hinv hlba file hopen
    (hinside hlba _ hfile hopen) clstrN₀ stray n off
  have hsame : Initialised s file n off ↔ ∀ clstrN₀ clstrN₁,
      ∀ k < (off + n).toNat - off.toNat,
        SameFetch ide.disk ide.disk s.lba (kfs2ByteIndex (off + UInt32.ofNat k))
          (kfs2Follow ide.disk s.lba s.clusterN (kfs2Source start clstrN₀ off k)
            (kfs2Links off k).toNat)
          (kfs2Follow ide.disk s.lba s.clusterN (kfs2Source start clstrN₁ off k)
            (kfs2Links off k).toNat) := by
    simp only [Initialised, (hread _ _).1, (hread _ _).2, true_and]
    exact ⟨fun h c₀ c₁ => kfs2Bytes_eq_iff.mp fun stray => h stray c₀ c₁,
      fun h stray c₀ c₁ => kfs2Bytes_eq_iff.mpr (h c₀ c₁) stray⟩
  -- on one disk, clusters are the same if their numbers are
  have hone : ∀ {idx : ℤ} {c c' : LONG}, SameFetch ide.disk ide.disk s.lba idx c c' ↔
      c = c' ∨ 0 ≤ idx ∧
        clusterByte ide.disk s.lba c idx.toNat = clusterByte ide.disk s.lba c' idx.toNat :=
    or_congr_left ⟨fun h => h.1, fun h => ⟨h, fun a _ => by rw [h]⟩⟩
  rw [hsame]
  simp only [hone]
  constructor
  · intro h k hk hkept
    have hboth := h (kfs2ByteClstr off) (kfs2ByteClstr off + 1) k hk
    have hne : ¬kfs2ByteClstr off = kfs2ByteClstr off + 1 := by
      grind
    rw [kfs2Links_of_kept hkept, kfs2Source, kfs2Source, if_pos ⟨rfl, hkept⟩,
      if_neg fun h' => hne h'.1] at hboth
    exact hboth
  · intro h clstrN₀ clstrN₁ k hk
    by_cases hkept : Kept off k
    · -- each of the walks starts at one of the two clusters
      have hsrc : ∀ c, kfs2Source start c off k = 0 ∨ kfs2Source start c off k = start := by
        intro c
        unfold kfs2Source
        split_ifs
        · exact .inl rfl
        · exact .inr rfl
      rw [kfs2Links_of_kept hkept]
      obtain h₀ | h₀ := hsrc clstrN₀ <;> obtain h₁ | h₁ := hsrc clstrN₁ <;> rw [h₀, h₁]
      · exact .inl rfl
      · exact h k hk hkept
      · exact (h k hk hkept).imp Eq.symm fun hcell => ⟨hcell.1, hcell.2.symm⟩
      · exact .inl rfl
    · have hsrc : ∀ c, kfs2Source start c off k = start := fun c => if_neg fun h' => hkept h'.2
      rw [hsrc, hsrc]
      exact .inl rfl

/-- A drive with a KFS2 file system of two clusters at sector `1`: the first has the byte `b` at the
start of its data, the second holds a file named `i`. -/
def kfs2TwoClusterIde (b : BYTE) : Ide where
  disk := fun a =>
    if 9216 ≤ a then ofList [1, 0, 0, 0, 0, 0, 0, 0, 0x69] (a - 9216)
    else if a = 1536 then b
    else if 512 ≤ a then ofList [0x27, 0x96, 0x01, 0x37, 2] (a - 512)
    else 0
  fault := fun _ => false
  calls := 0

/-- The globals of that drive after the mount and the open: the file is in slot `0`. -/
lemma kfs2TwoCluster_opened {s : Kfs2}
    (hs : s = Run.run Kfs2.step (Kfs2.boot (kfs2TwoClusterIde 0x41))
      [.init 1, .openFile (ofList [0x69])]) :
    s.lba = 1 ∧ s.clusterN = 2 ∧ s.handles 0 = ⟨1, 1⟩ := by
  rw [hs]
  decide +kernel

/-- Two bytes of that file are read that are the same in both clusters. -/
theorem kfs2_read_byte_initialised_iff_two_clusters :
    let s := Run.run Kfs2.step (Kfs2.boot (kfs2TwoClusterIde 0x41))
      [.init 1, .openFile (ofList [0x69])]
    Initialised s 0 2 1 := by
  have hiff := kfs2_read_byte_initialised_iff (kfs2TwoClusterIde 0x41) (fun _ => rfl)
    [.init 1, .openFile (ofList [0x69])] 0 2 1
  generalize hs : Run.run Kfs2.step (Kfs2.boot (kfs2TwoClusterIde 0x41))
    [.init 1, .openFile (ofList [0x69])] = s at hiff ⊢
  obtain ⟨hlba, hn, hslot⟩ := kfs2TwoCluster_opened hs.symm
  simp only [UInt32.toNat_zero, hlba, hn, hslot] at hiff ⊢
  refine (hiff (by decide) (by decide) (by decide)).mpr fun k hk _ => .inr ?_
  have hsame : ∀ k < 2, 0 ≤ kfs2ByteIndex (1 + UInt32.ofNat k) ∧
      clusterByte (kfs2TwoClusterIde 0x41).disk 1
          (kfs2Follow (kfs2TwoClusterIde 0x41).disk 1 2 0 (kfs2ByteClstr 1).toNat)
          (kfs2ByteIndex (1 + UInt32.ofNat k)).toNat =
        clusterByte (kfs2TwoClusterIde 0x41).disk 1
          (kfs2Follow (kfs2TwoClusterIde 0x41).disk 1 2 1 (kfs2ByteClstr 1).toNat)
          (kfs2ByteIndex (1 + UInt32.ofNat k)).toNat := by decide
  exact hsame k hk

/-- The first byte of that file is read, with `1` and with `0` in the uninitialised variable. -/
theorem kfs2_read_byte_uninitialised :
    let s := Run.run Kfs2.step (Kfs2.boot (kfs2TwoClusterIde 0x41))
      [.init 1, .openFile (ofList [0x69])]
    s.lba ≠ 0 ∧ (s.handles 0).Open ∧
    (kfs2ReadByte s 1 (fun _ _ _ _ => 0) 0 1 0).2.1 = [0] ∧
    (kfs2ReadByte s 0 (fun _ _ _ _ => 0) 0 1 0).2.1 = [0x41] ∧
    ¬Initialised s 0 1 0 := by
  have hide : (kfs2TwoClusterIde 0x41).Faithful := fun _ => rfl
  have hinv := (Kfs2.reachable hide [.init 1, .openFile (ofList [0x69])]).1
  generalize hs : Run.run Kfs2.step (Kfs2.boot (kfs2TwoClusterIde 0x41))
    [.init 1, .openFile (ofList [0x69])] = s at hinv ⊢
  obtain ⟨hlba, hn, hslot⟩ := kfs2TwoCluster_opened hs.symm
  have hmount : s.lba ≠ 0 := by
    rw [hlba]
    decide
  have hopen : (s.handles 0).Open := by
    rw [hslot]
    decide
  have hin : (s.handles 0).startclstr < s.clusterN := by
    rw [hslot, hn]
    decide
  have hread := fun c => (kfs2ReadByte_eq hinv hmount 0 hopen hin c (fun _ _ _ _ => 0) 1 0).2
  simp only [UInt32.toNat_zero, hslot, hlba, hn] at hread
  have h1 : (kfs2ReadByte s 1 (fun _ _ _ _ => 0) 0 1 0).2.1 = [0] :=
    (hread 1).trans ((kfs2Bytes_one (by decide)).trans (by decide))
  have h0 : (kfs2ReadByte s 0 (fun _ _ _ _ => 0) 0 1 0).2.1 = [0x41] :=
    (hread 0).trans ((kfs2Bytes_one (by decide)).trans (by decide))
  refine ⟨hmount, hopen, h1, h0, fun h => ?_⟩
  have heq := (h (fun _ _ _ _ => 0) 1 0).2
  rw [h1, h0] at heq
  exact absurd heq (by decide)

/-! ## Other files -/

/-- The clusters of a file: the first one, and the ones the links lead to until there is none. -/
inductive FileHas (disk : ℕ → BYTE) (lba start : LONG) : LONG → Prop
  | start : FileHas disk lba start start
  | next {c : LONG} : FileHas disk lba start c → clusterNext disk lba c ≠ 0 →
      FileHas disk lba start (clusterNext disk lba c)

/-- Two disks agree on the header of the file system and on the clusters of a file. -/
structure SameFile (disk disk' : ℕ → BYTE) (lba start : LONG) : Prop where
  header : ∀ k < 512, disk' (512 * lba.toNat + k) = disk (512 * lba.toNat + k)
  clusters : ∀ c, FileHas disk lba start c →
    ∀ a < 8192, clusterByte disk' lba c a = clusterByte disk lba c a

/-- The globals with nothing cached, on a drive with the contents `disk`. -/
def Kfs2.uncached (s : Kfs2) (disk : ℕ → BYTE) : Kfs2 :=
  { s with clusterIndex := 0xffffffff, ide := { s.ide with disk := disk } }

/-- With nothing cached, a read returns the same count and the same bytes on all disks that agree
with that of `s` on the header and on the file, whatever is below the buffer. -/
def Isolated (s : Kfs2) (clstrN₀ file n off : LONG) : Prop :=
  ∀ disk', SameFile s.ide.disk disk' s.lba (s.handles file.toNat).startclstr → ∀ stray,
    (kfs2ReadByte (s.uncached disk') clstrN₀ stray file n off).1 =
      (kfs2ReadByte (s.uncached s.ide.disk) clstrN₀ stray file n off).1 ∧
    (kfs2ReadByte (s.uncached disk') clstrN₀ stray file n off).2.1 =
      (kfs2ReadByte (s.uncached s.ide.disk) clstrN₀ stray file n off).2.1

/-- Cluster `0` is one of the file's, or every byte is fetched after a walk that starts at the first
cluster of the file and does not follow the link of the last one. -/
def StaysInFile (disk : ℕ → BYTE) (lba clusterN start clstrN₀ off : LONG) (n : ℕ) : Prop :=
  (∃ c, FileHas disk lba start c ∧ SameSectors c 0) ∨
  ∀ k < n, ¬(kfs2ByteClstr off = clstrN₀ ∧ Kept off k) ∧
    ∀ j < (kfs2Links off k).toNat, clusterNext disk lba (kfs2Follow disk lba clusterN start j) ≠ 0

section Isolation

variable {disk disk' : ℕ → BYTE} {lba clusterN start clstrN₀ off c : LONG} {t : ℕ}

lemma clusterByte_of_sameSectors {c' : LONG} (h : SameSectors c c') :
    clusterByte disk lba c = clusterByte disk lba c' := by
  unfold clusterByte clstrLba
  rw [show c * 16 = c' * 16 from h]

lemma clusterNext_congr (h : ∀ a < 8192, clusterByte disk' lba c a = clusterByte disk lba c a) :
    clusterNext disk' lba c = clusterNext disk lba c :=
  le32_congr fun k hk => h _ (by omega)

/-- A walk that passes clusters on which the disks agree. -/
lemma kfs2Follow_congr {S : LONG → Prop}
    (hS : ∀ c, S c → ∀ a < 8192, clusterByte disk' lba c a = clusterByte disk lba c a)
    (hpath : ∀ j < t, S (kfs2Follow disk lba clusterN c j)) :
    kfs2Follow disk' lba clusterN c t = kfs2Follow disk lba clusterN c t :=
  Links.follow_congr fun j hj => clusterNext_congr (hS _ (hpath j hj))

/-- A walk from the first cluster stays in the file until it follows the link of the last
cluster. -/
lemma FileHas.follow
    (h : ∀ j < t, clusterNext disk lba (kfs2Follow disk lba clusterN start j) ≠ 0) :
    FileHas disk lba start (kfs2Follow disk lba clusterN start t) :=
  Links.follow_mem .start fun j hj hc _ => hc.next (h j hj)

/-- If cluster `0` is one of the file's, every walk from there or from the first cluster is a walk
over clusters of the file. -/
lemma follow_of_zero (hc : FileHas disk lba start c) (hzero : SameSectors c 0) {src : LONG}
    (hsrc : FileHas disk lba start src ∨ src = 0) (t : ℕ) :
    FileHas disk lba start (kfs2Follow disk lba clusterN src t) ∨
    kfs2Follow disk lba clusterN src t = 0 := by
  have hlink : ∀ b, FileHas disk lba start b →
      FileHas disk lba start (clusterNext disk lba b) ∨ clusterNext disk lba b = 0 := by
    intro b hb
    by_cases h0 : clusterNext disk lba b = 0
    · exact .inr h0
    · exact .inl (hb.next h0)
  refine Links.follow_mem (S := fun b => FileHas disk lba start b ∨ b = 0) hsrc fun j _ hb _ => ?_
  obtain hb | hb := hb
  · exact hlink _ hb
  · have hnext : clusterNext disk lba 0 = clusterNext disk lba c := by
      rw [clusterNext, clusterNext, clusterByte_of_sameSectors hzero]
    rw [hb, hnext]
    exact hlink c hc

/-- **Enough for isolation**: the walks lead to the same clusters on all disks that agree on the
file, and on these the disks agree.

**Proof sketch.** The clusters that are passed are clusters of the file, or cluster `0` if that has
the sectors of one; on all of them the disks agree. -/
lemma sameFetch_of_staysInFile {n : ℕ} (hsame : SameFile disk disk' lba start)
    (hstay : StaysInFile disk lba clusterN start clstrN₀ off n) {k : ℕ} (hk : k < n) (idx : ℤ) :
    SameFetch disk' disk lba idx
      (kfs2Follow disk' lba clusterN (kfs2Source start clstrN₀ off k) (kfs2Links off k).toNat)
      (kfs2Follow disk lba clusterN (kfs2Source start clstrN₀ off k)
        (kfs2Links off k).toNat) := by
  left
  obtain ⟨c, hc, hzero⟩ | hwalk := hstay
  · have hagree : ∀ b, FileHas disk lba start b ∨ b = 0 →
        ∀ a < 8192, clusterByte disk' lba b a = clusterByte disk lba b a := by
      rintro b (hb | rfl) a ha
      · exact hsame.clusters b hb a ha
      · rw [← clusterByte_of_sameSectors hzero, ← clusterByte_of_sameSectors hzero]
        exact hsame.clusters c hc a ha
    have hsrc : FileHas disk lba start (kfs2Source start clstrN₀ off k) ∨
        kfs2Source start clstrN₀ off k = 0 := by
      rw [kfs2Source]
      split_ifs
      · exact .inr rfl
      · exact .inl .start
    rw [kfs2Follow_congr hagree fun j _ => follow_of_zero hc hzero hsrc j]
    exact ⟨rfl, hagree _ (follow_of_zero hc hzero hsrc _)⟩
  · obtain ⟨hsrc, hopen⟩ := hwalk k hk
    rw [kfs2Source, if_neg hsrc,
      kfs2Follow_congr hsame.clusters fun j hj => .follow fun i hi => hopen i (by omega)]
    exact ⟨rfl, hsame.clusters _ (.follow hopen)⟩

/-- A walk that leaves the file comes to cluster `0`, over clusters of the file. -/
lemma exists_follow_eq_zero {src : LONG}
    (h : src = 0 ∨ src = start ∧
      ∃ j < t, clusterNext disk lba (kfs2Follow disk lba clusterN start j) = 0) :
    ∃ j ≤ t, kfs2Follow disk lba clusterN src j = 0 ∧
      ∀ i < j, FileHas disk lba start (kfs2Follow disk lba clusterN src i) := by
  obtain rfl | ⟨rfl, hend⟩ := h
  · exact ⟨0, Nat.zero_le t, rfl, fun i hi => absurd hi (Nat.not_lt_zero i)⟩
  · -- the first time that the link of the last cluster is followed
    obtain ⟨hlt, hz⟩ := Nat.find_spec hend
    refine ⟨Nat.find hend + 1, hlt, ?_, fun i hi => .follow fun i' hi' h0 => ?_⟩
    · rw [kfs2Follow, Links.follow_succ_last, Links.hop]
      rw [kfs2Follow] at hz
      rw [hz, if_pos (by simp)]
    · exact Nat.find_min hend (show i' < Nat.find hend by omega) ⟨by omega, h0⟩

/-- The contents of the drive after cluster `0` was filled with the byte `v`. -/
def filled (ide : Ide) (lba : LONG) (v : BYTE) : ℕ → BYTE :=
  (writeSectors (clstrLba lba 0) (fun _ => v) 16 0 ide).disk

section Filled

variable {ide : Ide} {v : BYTE}

/-- If cluster `0` is none of the file's, filling it leaves the header and the file alone. -/
lemma sameFile_filled (hide : ide.Faithful)
    (hno : ∀ c, FileHas ide.disk lba start c → ¬SameSectors c 0) :
    SameFile ide.disk (filled ide lba v) lba start := by
  constructor
  · intro k hk
    obtain ⟨-, hw⟩ := writeSectors_spec (clstrLba lba 0) (fun _ => v) 16 0 ide hide (by decide)
    have hdist : (lba - clstrLba lba 0).toNat = 2 ^ 32 - 1 := by
      have hneg : lba - clstrLba lba 0 = 0xffffffff := by
        unfold clstrLba
        grind
      rw [hneg]
      rfl
    rw [filled, hw lba k hk, hdist, if_neg (by decide)]
  · intro c hc a ha
    rw [filled, clusterByte_writeSectors hide lba 0 c _ ha, if_neg (hno c hc)]

/-- Cluster `0` after it was filled. -/
lemma clusterByte_filled (hide : ide.Faithful) {a : ℕ} (ha : a < 8192) :
    clusterByte (filled ide lba v) lba 0 a = v := by
  rw [filled, clusterByte_writeSectors hide lba 0 0 _ ha, if_pos (show SameSectors 0 0 from rfl)]

/-- Filled with `0` or `0xff`, cluster `0` has a link to itself or to no cluster. -/
lemma follow_filled (hide : ide.Faithful) (hN : clusterN ≠ 0xffffffff) (hv : v = 0 ∨ v = 0xff)
    (t : ℕ) : kfs2Follow (filled ide lba v) lba clusterN 0 t = 0 := by
  have hnext : clusterNext (filled ide lba v) lba 0 = le32 (fun _ => v) 276 :=
    le32_congr fun k hk => clusterByte_filled hide (by omega)
  refine Links.follow_of_fixed ?_ t
  rw [Links.hop, hnext]
  obtain rfl | rfl := hv
  · exact ite_self _
  · have hmax : le32 (fun _ => (0xff : BYTE)) 276 = 0xffffffff := by decide
    have hle : clusterN ≤ 0xffffffff :=
      UInt32.le_iff_toNat_le.mpr (Nat.le_of_lt_succ clusterN.toNat_lt)
    rw [hmax]
    exact if_neg fun hge => hN (UInt32.le_antisymm hle hge)

/-- A walk that leaves the file ends with what cluster `0` was filled with. -/
lemma byte_filled (hide : ide.Faithful) (hN : clusterN ≠ 0xffffffff) (hv : v = 0 ∨ v = 0xff)
    (hno : ∀ c, FileHas ide.disk lba start c → ¬SameSectors c 0) {src : LONG}
    (hleave : src = 0 ∨ src = start ∧
      ∃ j < t, clusterNext ide.disk lba (kfs2Follow ide.disk lba clusterN start j) = 0)
    {a : ℕ} (ha : a < 8192) :
    clusterByte (filled ide lba v) lba (kfs2Follow (filled ide lba v) lba clusterN src t) a =
      v := by
  obtain ⟨j, hj, hzero, hpath⟩ := exists_follow_eq_zero hleave
  have hsame : SameFile ide.disk (filled ide lba v) lba start := sameFile_filled hide hno
  have hwalk : kfs2Follow (filled ide lba v) lba clusterN src j = 0 := by
    rw [kfs2Follow_congr hsame.clusters hpath, hzero]
  have hend : kfs2Follow (filled ide lba v) lba clusterN src t = 0 := by
    rw [← Nat.add_sub_of_le hj, kfs2Follow, Links.follow_add]
    rw [kfs2Follow] at hwalk
    rw [hwalk]
    exact follow_filled hide hN hv _
  rw [hend, clusterByte_filled hide ha]

end Filled

/-- With nothing cached, the bytes read are those of the disk. -/
lemma kfs2ReadByte_uncached {s : Kfs2} (hide : s.ide.Faithful) (hlba : s.lba ≠ 0) (file : LONG)
    (hopen : (s.handles file.toNat).Open)
    (hstart : (s.handles file.toNat).startclstr < s.clusterN) (disk : ℕ → BYTE) (clstrN₀ : LONG)
    (stray : Kfs2Below) (n off : LONG) :
    (kfs2ReadByte (s.uncached disk) clstrN₀ stray file n off).1 =
      UInt32.ofNat ((off + n).toNat - off.toNat) ∧
    (kfs2ReadByte (s.uncached disk) clstrN₀ stray file n off).2.1 =
      kfs2Bytes disk s.lba s.clusterN s.buf (s.handles file.toNat).startclstr clstrN₀ stray off
        ((off + n).toNat - off.toNat) := by
  have hinv : (s.uncached disk).Inv disk := ⟨hide, rfl, fun _ h => absurd rfl h⟩
  exact kfs2ReadByte_eq hinv hlba file hopen hstart clstrN₀ stray n off

end Isolation

/-- **When a read does not depend on other files.** In every state that is reached from boot on a
working drive, with a file system mounted: for every open file and every read, with nothing cached,
the count and the bytes are the same on all disks that agree on the header and on the file if
cluster `0` is one of the file's, or every byte is fetched after a walk that starts at the first
cluster of the file and does not follow the link of the last one. If the number of clusters is not
the largest possible one, they are the same only then.

**Proof sketch.** Such a walk stays in the file (`sameFetch_of_staysInFile`). Any other walk comes
to cluster `0`; filled with `0` or with `0xff`, that cluster keeps it, and the byte is the one it
was filled with (`byte_filled`), or one from below a buffer that is filled so. -/
theorem kfs2_read_byte_isolated (ide : Ide) (hide : ide.Faithful) (ops : List Kfs2Op)
    (clstrN₀ file n off : LONG) :
    let s := Run.run Kfs2.step (Kfs2.boot ide) ops
    let start := (s.handles file.toNat).startclstr
    s.lba ≠ 0 → file.toNat < KFS2_MAX_FILES → (s.handles file.toNat).Open →
    (StaysInFile ide.disk s.lba s.clusterN start clstrN₀ off ((off + n).toNat - off.toNat) →
      Isolated s clstrN₀ file n off) ∧
    (s.clusterN ≠ 0xffffffff → Isolated s clstrN₀ file n off →
      StaysInFile ide.disk s.lba s.clusterN start clstrN₀ off ((off + n).toNat - off.toNat)) := by
  intro s start hlba hfile hopen
  obtain ⟨hinv, hinside⟩ : s.Inv ide.disk ∧ s.StartsInside := Kfs2.reachable hide ops
  have hread := fun disk' stray => kfs2ReadByte_uncached hinv.faithful hlba file hopen
    (hinside hlba _ hfile hopen) disk' clstrN₀ stray n off
  simp only [Isolated, (hread _ _).1, (hread _ _).2, true_and, kfs2Bytes_eq_iff, hinv.disk_eq]
  constructor
  · intro hstay disk' hsame k hk
    exact sameFetch_of_staysInFile hsame hstay hk _
  · intro hN hiso
    by_cases hzero : ∃ c, FileHas ide.disk s.lba start c ∧ SameSectors c 0
    · exact .inl hzero
    have hno : ∀ c, FileHas ide.disk s.lba start c → ¬SameSectors c 0 :=
      fun c hc hsec => hzero ⟨c, hc, hsec⟩
    refine .inr fun k hk => ?_
    by_contra hout
    have hleave : kfs2Source start clstrN₀ off k = 0 ∨ kfs2Source start clstrN₀ off k = start ∧
        ∃ j < (kfs2Links off k).toNat,
          clusterNext ide.disk s.lba (kfs2Follow ide.disk s.lba s.clusterN start j) = 0 := by
      rw [kfs2Source]
      split_ifs with hsrc
      · exact .inl rfl
      · refine .inr ⟨rfl, ?_⟩
        by_contra hnone
        exact hout ⟨hsrc, fun j hj h0 => hnone ⟨j, hj, h0⟩⟩
    -- the byte at the index is whatever cluster `0` is filled with; below the buffer, that at `0`
    have hlt := kfs2ByteIndex_lt (off + UInt32.ofNat k)
    have hbyte : ∀ v : BYTE, v = 0 ∨ v = 0xff →
        v = clusterByte ide.disk s.lba (kfs2Follow ide.disk s.lba s.clusterN
          (kfs2Source start clstrN₀ off k) (kfs2Links off k).toNat)
          (kfs2ByteIndex (off + UInt32.ofNat k)).toNat := by
      intro v hv
      have heq := (hiso (filled ide s.lba v) (sameFile_filled hide hno) k hk).cell hlt
      rw [byte_filled hide hN hv hno hleave (by omega)] at heq
      exact heq
    exact absurd ((hbyte 0 (.inl rfl)).trans (hbyte 0xff (.inr rfl)).symm) (by decide)

/-- Three bytes of the file of the drive with two clusters are read, with `1` in the uninitialised
variable, the last of them from below the buffer. -/
theorem kfs2_read_byte_isolated_first :
    let s := Run.run Kfs2.step (Kfs2.boot (kfs2TwoClusterIde 0x41))
      [.init 1, .openFile (ofList [0x69])]
    Isolated s 1 0 3 511 := by
  have hiff := kfs2_read_byte_isolated (kfs2TwoClusterIde 0x41) (fun _ => rfl)
    [.init 1, .openFile (ofList [0x69])] 1 0 3 511
  generalize hs : Run.run Kfs2.step (Kfs2.boot (kfs2TwoClusterIde 0x41))
    [.init 1, .openFile (ofList [0x69])] = s at hiff ⊢
  obtain ⟨hlba, -, hslot⟩ := kfs2TwoCluster_opened hs.symm
  simp only [UInt32.toNat_zero, hlba, hslot] at hiff ⊢
  refine (hiff (by decide) (by decide) (by decide)).1 (.inr fun k hk => ?_)
  have hlinks : ∀ k < 3, (kfs2Links 511 k).toNat = 0 := by decide
  rw [hlinks k hk]
  exact ⟨fun h => absurd h.1 (by decide), fun j hj => absurd hj (Nat.not_lt_zero j)⟩

/-- The file of that drive has one cluster, and the drives with different bytes in the other one
agree on it. -/
lemma sameFile_twoCluster (b b' : BYTE) :
    SameFile (kfs2TwoClusterIde b).disk (kfs2TwoClusterIde b').disk 1 1 := by
  have hfile : ∀ c, FileHas (kfs2TwoClusterIde b).disk 1 1 c → c = 1 := by
    intro c hc
    induction hc with
    | start => rfl
    | next hc hne ih =>
      rw [ih] at hne
      exact absurd rfl hne
  constructor
  · intro k hk
    have h1 : ¬9216 ≤ 512 * (1 : LONG).toNat + k := by
      rw [UInt32.toNat_one]
      omega
    have h2 : ¬512 * (1 : LONG).toNat + k = 1536 := by
      rw [UInt32.toNat_one]
      omega
    simp only [kfs2TwoClusterIde, if_neg h1, if_neg h2]
  · intro c hc a ha
    rw [hfile c hc]
    have hlba : (clstrLba 1 1).toNat = 18 := rfl
    have hsector : (clstrLba 1 1 + UInt32.ofNat (a / 512)).toNat = 18 + a / 512 := by
      rw [toNat_add_ofNat (by omega), hlba]
    have hge : 9216 ≤ 512 * (18 + a / 512) + a % 512 := by omega
    simp only [clusterByte, sectorByte, hsector, kfs2TwoClusterIde, if_pos hge]

/-- One byte behind the end of that file is read: the byte returned is that of the other cluster. -/
theorem kfs2_read_byte_leaks :
    let s := Run.run Kfs2.step (Kfs2.boot (kfs2TwoClusterIde 0x41))
      [.init 1, .openFile (ofList [0x69])]
    (kfs2ReadByte (s.uncached (kfs2TwoClusterIde 0x41).disk) 5 (fun _ _ _ _ => 0) 0 1 7680).2.1 =
      [0x41] ∧
    (kfs2ReadByte (s.uncached (kfs2TwoClusterIde 0x42).disk) 5 (fun _ _ _ _ => 0) 0 1 7680).2.1 =
      [0x42] ∧
    ¬Isolated s 5 0 1 7680 := by
  have hide : (kfs2TwoClusterIde 0x41).Faithful := fun _ => rfl
  have hinv := (Kfs2.reachable hide [.init 1, .openFile (ofList [0x69])]).1
  generalize hs : Run.run Kfs2.step (Kfs2.boot (kfs2TwoClusterIde 0x41))
    [.init 1, .openFile (ofList [0x69])] = s at hinv ⊢
  obtain ⟨hlba, hn, hslot⟩ := kfs2TwoCluster_opened hs.symm
  have hmount : s.lba ≠ 0 := by
    rw [hlba]
    decide
  have hopen : (s.handles 0).Open := by
    rw [hslot]
    decide
  have hin : (s.handles 0).startclstr < s.clusterN := by
    rw [hslot, hn]
    decide
  have hread := fun disk =>
    (kfs2ReadByte_uncached hinv.faithful hmount 0 hopen hin disk 5 (fun _ _ _ _ => 0) 1 7680).2
  simp only [UInt32.toNat_zero, hslot, hlba, hn] at hread
  have h41 : (kfs2ReadByte (s.uncached (kfs2TwoClusterIde 0x41).disk) 5 (fun _ _ _ _ => 0) 0 1
      7680).2.1 = [0x41] := (hread _).trans ((kfs2Bytes_one (by decide)).trans (by decide))
  have h42 : (kfs2ReadByte (s.uncached (kfs2TwoClusterIde 0x42).disk) 5 (fun _ _ _ _ => 0) 0 1
      7680).2.1 = [0x42] := (hread _).trans ((kfs2Bytes_one (by decide)).trans (by decide))
  refine ⟨h41, h42, fun h => ?_⟩
  have hsame : SameFile s.ide.disk (kfs2TwoClusterIde 0x42).disk s.lba
      (s.handles (0 : LONG).toNat).startclstr := by
    rw [hinv.disk_eq, hlba, UInt32.toNat_zero, hslot]
    exact sameFile_twoCluster 0x41 0x42
  have heq := (h _ hsame fun _ _ _ _ => 0).2
  rw [hinv.disk_eq, h41, h42] at heq
  exact absurd heq (by decide)

end Korolev
