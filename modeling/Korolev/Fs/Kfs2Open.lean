import Korolev.Fs.Kfs2Cache

set_option relaxedAutoImplicit false
set_option autoImplicit false

/-!
# Opening files of KFS2

`kfs2_open_file` scans the clusters in order, compares names with the kernel's `strncmp` and, at
the first match, takes the first free slot of the handle table. Three things have to fit together
for a returned handle to mean what it says: the buffer holds the cluster that is being looked at
(`Korolev.ClusterCache.Inv`), a comparison that returns `0` is right
(`Korolev.eqUpTo_of_strncmp_eq_zero`), and only a free slot is overwritten.

## Main definitions

* `Korolev.Kfs2.OpenSound` — what one call may do to the handle table.
* `Korolev.Kfs2.StartsInside` — what the handle table promises to the other calls.
* `Korolev.ReadUsesOnly` — a read looks at these entries of the table only.
* `Korolev.RejectsBadHandle` — a read refuses handles that are not open.

## Main results

* `Korolev.kfs2OpenScan_cases` — everything the directory scan can end in.
* `Korolev.kfs2_open_sound` — soundness of opened handles, along every sequence of calls on a
  mounted file system.
* `Korolev.Kfs2.reachable` — open files start at a cluster in range, in every state that is
  reached from boot.
* `Korolev.kfs2_read_byte_rejects_iff` — when bad handles are rejected.
-/

namespace Korolev

open Bytes CStr

variable {disk : ℕ → BYTE} {s : Kfs2}

/-! ## Mounting -/

/-- After a successful mount the file system is mounted where it was asked to, nothing is cached
and the invariant holds. -/
lemma kfs2Init_mounted {s₀ : Kfs2} {lba : LONG} (hide : s₀.ide.Faithful)
    (h : (kfs2Init s₀ lba).1 = 1) :
    (kfs2Init s₀ lba).2.lba = lba ∧ (kfs2Init s₀ lba).2.Inv s₀.ide.disk := by
  have hs₀ : s₀.lba = 0 := by
    by_contra hne
    simp [kfs2Init, hne] at h
  refine ⟨?_, Kfs2.inv_init ⟨hide, rfl, fun h0 => absurd hs₀ h0⟩ lba⟩
  rw [kfs2Init, if_neg (not_not.mpr hs₀)] at h ⊢
  simp only [Kfs2.puts, ideReadSector_of_faithful hide] at h ⊢
  rw [if_neg (by decide)] at h ⊢
  split_ifs at h ⊢ with hsig
  · simp at h
  · rfl

/-! ## The handle table -/

/-- The slot search returns the first free slot, which it fills, or fails because there is
none. -/
lemma kfs2TakeHandle_cases (s : Kfs2) (i : LONG) (n : ℕ) : ∀ j,
    (∃ k, j ≤ k ∧ k < j + n ∧ ¬(s.handles k).Open ∧
      kfs2TakeHandle s i n j =
        (UInt32.ofNat k, { s with handles := Function.update s.handles k ⟨1, i⟩ })) ∨
    ((∀ k, j ≤ k → k < j + n → (s.handles k).Open) ∧
      kfs2TakeHandle s i n j = (0xffffffff, { s with err := EMFILE })) := by
  induction n with
  | zero => exact fun j => .inr ⟨fun k _ _ => by omega, rfl⟩
  | succ n ih =>
    intro j
    rw [kfs2TakeHandle]
    by_cases hfree : (s.handles j).flags &&& 1 = 0
    · exact .inl ⟨j, le_rfl, by omega, not_not.mpr hfree, if_pos hfree⟩
    · rw [if_neg hfree]
      rcases ih (j + 1) with ⟨k, hk1, hk2, hk⟩ | ⟨hall, heq⟩
      · exact .inl ⟨k, by omega, by omega, hk⟩
      · exact .inr ⟨forall_of_first hfree fun k h₁ h₂ => hall k h₁ (by omega), heq⟩

/-- **Everything the directory scan can end in**, from cluster `i` on with `n` clusters left:

* a free slot was filled with the number of a cluster that is a file of that name;
* a file of that name was found, but no slot is free;
* no file was found.

**Proof sketch.** Induction on the number of clusters left. `kfs2_read_cluster` brings cluster
`i` into the buffer and leaves the table alone, so the type and name looked at are those on the
disk; on a match the slot search decides (`kfs2TakeHandle_cases`). -/
lemma kfs2OpenScan_cases (filename : ℕ → BYTE) (n : ℕ) : ∀ (s : Kfs2) (i : LONG),
    s.Inv disk → s.lba ≠ 0 → i.toNat + n = s.clusterN.toNat →
    (∃ c < s.clusterN, ∃ j < KFS2_MAX_FILES, ¬(s.handles j).Open ∧
      kfs2Type (clusterByte disk s.lba c) = KFS2_TYPE_FILE ∧
      EqUpTo 256 filename (kfs2Name (clusterByte disk s.lba c)) ∧
      (kfs2OpenScan filename n i s).1 = UInt32.ofNat j ∧
      (kfs2OpenScan filename n i s).2.handles = Function.update s.handles j ⟨1, c⟩) ∨
    ((∀ j < KFS2_MAX_FILES, (s.handles j).Open) ∧
      (kfs2OpenScan filename n i s).1 = 0xffffffff ∧
      (kfs2OpenScan filename n i s).2.handles = s.handles ∧
      (kfs2OpenScan filename n i s).2.err = EMFILE) ∨
    ((kfs2OpenScan filename n i s).1 = 0xffffffff ∧
      (kfs2OpenScan filename n i s).2.handles = s.handles ∧
      (kfs2OpenScan filename n i s).2.err = ENOENT) := by
  induction n with
  | zero => exact fun s i _ _ _ => .inr (.inr ⟨rfl, rfl, rfl⟩)
  | succ n ih =>
    intro s i hinv hlba hin
    have hlt : i < s.clusterN := UInt32.lt_iff_toNat_lt.mpr (by omega)
    have hnext : (i + 1).toNat = i.toNat + 1 :=
      toNat_succ_of_lt (UInt32.lt_iff_toNat_lt.mp hlt)
    have hbuf : ∀ a < 8192, (kfs2ReadCluster s i).buf a = clusterByte disk s.lba i a :=
      hinv.readCluster_buf hlba (UInt32.le_of_lt hlt) (by grind)
    have hrest := ih (kfs2ReadCluster s i) (i + 1) (Kfs2.inv_readCluster hinv i)
      (by simpa using hlba) (by rw [hnext, kfs2ReadCluster_clusterN]; omega)
    simp only [kfs2ReadCluster_lba, kfs2ReadCluster_clusterN, kfs2ReadCluster_handles] at hrest
    rw [kfs2OpenScan]
    split_ifs with htype hname
    · exact hrest
    · have htype' : kfs2Type (clusterByte disk s.lba i) = KFS2_TYPE_FILE := by
        rw [← not_not.mp htype]
        exact (le32_congr fun k hk => hbuf _ (by omega)).symm
      have hname' : EqUpTo 256 filename (kfs2Name (clusterByte disk s.lba i)) :=
        (eqUpTo_congr_right fun k hk => hbuf _ (by omega)).mp
          (eqUpTo_of_strncmp_eq_zero (by decide) hname)
      rcases kfs2TakeHandle_cases (kfs2ReadCluster s i) i KFS2_MAX_FILES 0 with
        ⟨j, -, hj, hfree, heq⟩ | ⟨hall, heq⟩
      · rw [kfs2ReadCluster_handles] at hfree
        refine .inl ⟨i, hlt, j, by omega, hfree, htype', hname', ?_⟩
        rw [heq]
        exact ⟨rfl, by rw [kfs2ReadCluster_handles]⟩
      · rw [kfs2ReadCluster_handles] at hall
        refine .inr (.inl ⟨fun j hj => hall j (by omega) (by omega), ?_⟩)
        rw [heq]
        exact ⟨rfl, kfs2ReadCluster_handles s i, rfl⟩
    · exact hrest

/-! ## The other calls leave the table alone -/

lemma kfs2Walk_frame (clstrN : ℕ) : ∀ (s : Kfs2) (clstr : LONG),
    (kfs2Walk s clstr clstrN).1.handles = s.handles ∧
    (kfs2Walk s clstr clstrN).1.lba = s.lba ∧
    (kfs2Walk s clstr clstrN).1.clusterN = s.clusterN := by
  induction clstrN with
  | zero =>
    exact fun s clstr => ⟨kfs2ReadCluster_handles s clstr, kfs2ReadCluster_lba s clstr,
      kfs2ReadCluster_clusterN s clstr⟩
  | succ clstrN ih =>
    intro s clstr
    obtain ⟨h1, h2, h3⟩ := ih (kfs2ReadCluster s clstr) (kfs2Next (kfs2ReadCluster s clstr).buf)
    exact ⟨h1.trans (by simp), h2.trans (by simp), h3.trans (by simp)⟩

lemma kfs2ReadLoop_frame (start : LONG) (stray : Kfs2Below) (n : ℕ) :
    ∀ (i clstr clstrN : LONG) (s : Kfs2),
      (kfs2ReadLoop start stray n i clstr clstrN s).1.handles = s.handles ∧
      (kfs2ReadLoop start stray n i clstr clstrN s).1.lba = s.lba ∧
      (kfs2ReadLoop start stray n i clstr clstrN s).1.clusterN = s.clusterN := by
  induction n with
  | zero => exact fun i clstr clstrN s => ⟨rfl, rfl, rfl⟩
  | succ n ih =>
    intro i clstr clstrN s
    rw [kfs2ReadLoop]
    dsimp only
    obtain ⟨h1, h2, h3⟩ := ih (i + 1) _ 0 (kfs2Walk s _ _).1
    obtain ⟨w1, w2, w3⟩ := kfs2Walk_frame _ s _
    exact ⟨h1.trans w1, h2.trans w2, h3.trans w3⟩

/-- Reading bytes of a file leaves the table and the mount alone. -/
lemma kfs2ReadByte_frame (s : Kfs2) (clstrN₀ : LONG) (stray : Kfs2Below)
    (file n off : LONG) :
    (kfs2ReadByte s clstrN₀ stray file n off).2.2.handles = s.handles ∧
    (kfs2ReadByte s clstrN₀ stray file n off).2.2.lba = s.lba ∧
    (kfs2ReadByte s clstrN₀ stray file n off).2.2.clusterN = s.clusterN := by
  rw [kfs2ReadByte]
  dsimp only
  split_ifs
  · exact ⟨rfl, rfl, rfl⟩
  · exact kfs2ReadLoop_frame _ stray _ _ _ _ s

lemma kfs2TakeHandle_frame (s : Kfs2) (i : LONG) (n j : ℕ) :
    (kfs2TakeHandle s i n j).2.lba = s.lba ∧
    (kfs2TakeHandle s i n j).2.clusterN = s.clusterN := by
  rcases kfs2TakeHandle_cases s i n j with ⟨k, -, -, -, h⟩ | ⟨-, h⟩
  · rw [h]
    exact ⟨rfl, rfl⟩
  · rw [h]
    exact ⟨rfl, rfl⟩

/-- Opening a file leaves the mount alone. -/
lemma kfs2OpenScan_frame (filename : ℕ → BYTE) (n : ℕ) : ∀ (s : Kfs2) (i : LONG),
    (kfs2OpenScan filename n i s).2.lba = s.lba ∧
    (kfs2OpenScan filename n i s).2.clusterN = s.clusterN := by
  induction n with
  | zero => exact fun s i => ⟨rfl, rfl⟩
  | succ n ih =>
    intro s i
    have hrest := ih (kfs2ReadCluster s i) (i + 1)
    have htake := kfs2TakeHandle_frame (kfs2ReadCluster s i) i KFS2_MAX_FILES 0
    rw [kfs2ReadCluster_lba, kfs2ReadCluster_clusterN] at hrest htake
    rw [kfs2OpenScan]
    split_ifs
    · exact hrest
    · exact htake
    · exact hrest

/-- No call unmounts a file system. -/
lemma Kfs2.step_lba {s : Kfs2} (h : s.lba ≠ 0) (op : Kfs2Op) : (s.step op).lba = s.lba := by
  cases op with
  | init lba => rw [Kfs2.step, kfs2Init, if_pos h]
  | readCluster n => exact kfs2ReadCluster_lba s n
  | openFile filename => exact (kfs2OpenScan_frame filename _ s 0).1
  | readByte clstrN₀ stray file n off =>
    exact (kfs2ReadByte_frame s clstrN₀ stray file n off).2.1
  | closeFile handle =>
    rw [Kfs2.step, kfs2CloseFile]
    split_ifs <;> rfl

/-! ## Soundness of handles -/

/-- A handle returned by `kfs2_open_file(filename)` on `s`, with `r` the result and the globals
after it, is sound: its slot was free and is open, it names a file cluster of that name, and no
other slot changed. A failed call changes no slot and blames the table only if it is full. -/
def Kfs2.OpenSound (disk : ℕ → BYTE) (s : Kfs2) (filename : ℕ → BYTE) (r : LONG × Kfs2) :
    Prop :=
  (r.1 ≠ 0xffffffff →
    r.1.toNat < KFS2_MAX_FILES ∧ ¬(s.handles r.1.toNat).Open ∧ (r.2.handles r.1.toNat).Open ∧
    (∃ i < s.clusterN, (r.2.handles r.1.toNat).startclstr = i ∧
      kfs2Type (clusterByte disk s.lba i) = KFS2_TYPE_FILE ∧
      EqUpTo 256 filename (kfs2Name (clusterByte disk s.lba i))) ∧
    ∀ j, j ≠ r.1.toNat → r.2.handles j = s.handles j) ∧
  (r.1 = 0xffffffff →
    (∀ j, r.2.handles j = s.handles j) ∧
    (r.2.err = EMFILE → ∀ j < KFS2_MAX_FILES, (s.handles j).Open))

/-- What a handle returned by the scan means. -/
lemma kfs2OpenFile_sound (hinv : s.Inv disk) (hlba : s.lba ≠ 0) (filename : ℕ → BYTE) :
    s.OpenSound disk filename (kfs2OpenFile s filename) := by
  rw [kfs2OpenFile]
  rcases kfs2OpenScan_cases filename s.clusterN.toNat s 0 hinv hlba (by simp) with
    ⟨c, hc, j, hj, hfree, htype, hname, hr, hh⟩ | ⟨hall, hr, hh, -⟩ | ⟨hr, hh, herr⟩
  · have hj' : (UInt32.ofNat j).toNat = j := by
      simp only [KFS2_MAX_FILES] at hj
      exact toNat_ofNat_of_lt (by omega)
    refine ⟨fun _ => ?_, fun hbad => ?_⟩
    · rw [hr, hh, hj']
      refine ⟨hj, hfree, ?_, ⟨c, hc, ?_, htype, hname⟩, fun k hk => Function.update_of_ne hk _ _⟩
      · rw [Function.update_self]
        exact show (1 : LONG) &&& 1 ≠ 0 by decide
      · rw [Function.update_self]
    · have hn := congrArg UInt32.toNat (hr.symm.trans hbad)
      rw [hj'] at hn
      simp only [KFS2_MAX_FILES] at hj
      simp at hn
      omega
  · exact ⟨fun hne => absurd hr hne, fun _ => ⟨fun j => by rw [hh], fun _ => hall⟩⟩
  · refine ⟨fun hne => absurd hr hne, fun _ => ⟨fun j => by rw [hh], fun hemf => ?_⟩⟩
    rw [herr] at hemf
    exact absurd hemf (by decide)

/-- An open slot survives every call but the one that closes it. -/
lemma Kfs2.step_handles_of_open (hinv : s.Inv disk) (hlba : s.lba ≠ 0) {op : Kfs2Op}
    {j : ℕ} (hopen : (s.handles j).Open) (hop : ∀ h, op = .closeFile h → h.toNat ≠ j) :
    (s.step op).handles j = s.handles j := by
  cases op with
  | init lba => rw [Kfs2.step, kfs2Init, if_pos hlba]
  | readCluster n => rw [Kfs2.step, kfs2ReadCluster_handles]
  | openFile filename =>
    obtain ⟨hok, hfail⟩ := kfs2OpenFile_sound hinv hlba filename
    by_cases hr : (kfs2OpenFile s filename).1 = 0xffffffff
    · exact (hfail hr).1 j
    · obtain ⟨-, hfree, -, -, hother⟩ := hok hr
      -- the slot that was taken is not `j`, because `j` is open
      refine hother j fun hj => ?_
      rw [hj] at hopen
      exact hfree hopen
  | readByte clstrN₀ stray file n off =>
    rw [Kfs2.step, (kfs2ReadByte_frame s clstrN₀ stray file n off).1]
  | closeFile handle =>
    rw [Kfs2.step, kfs2CloseFile]
    split_ifs
    · rfl
    · exact Function.update_of_ne (hop handle rfl).symm _ _
    · rfl

/-- What the table of open files relies on between calls. -/
def Kfs2.Mounted (disk : ℕ → BYTE) (lba : LONG) (s : Kfs2) : Prop :=
  s.Inv disk ∧ s.lba = lba

/-- A mounted file system stays mounted. -/
lemma Kfs2.Mounted.step {lba : LONG} (hlba : lba ≠ 0) (h : s.Mounted disk lba) (op : Kfs2Op) :
    (s.step op).Mounted disk lba := by
  have hs : s.lba ≠ 0 := by rw [h.2]; exact hlba
  exact ⟨Kfs2.inv_step h.1 op, (Kfs2.step_lba hs op).trans h.2⟩

/-- An open slot keeps its contents through a run that does not close it. -/
lemma Kfs2.run_handles_of_open {lba : LONG} (hlba : lba ≠ 0) (h : s.Mounted disk lba) {j : ℕ}
    (hopen : (s.handles j).Open) {ops : List Kfs2Op}
    (hops : ∀ h, Kfs2Op.closeFile h ∈ ops → h.toNat ≠ j) :
    (Run.run Kfs2.step s ops).handles j = s.handles j := by
  induction ops generalizing s with
  | nil => rfl
  | cons op ops ih =>
    have hs0 : s.lba ≠ 0 := by rw [h.2]; exact hlba
    have hone : (s.step op).handles j = s.handles j :=
      Kfs2.step_handles_of_open h.1 hs0 hopen fun hd e => hops hd (by simp [e])
    rw [Run.run_cons, ih (h.step hlba op) (by rw [hone]; exact hopen)
      fun hd hmem => hops hd (by simp [hmem]), hone]

/-- **Handles are sound.** After a successful mount at `lba ≠ 0` on a working drive, along every
sequence of calls: every `kfs2_open_file` is sound (`Korolev.Kfs2.OpenSound`), and a slot that is
open at some point keeps its contents, its first cluster in particular, through every stretch of
calls in which it is not closed. -/
theorem kfs2_open_sound (s₀ : Kfs2) (lba : LONG) (hide : s₀.ide.Faithful) (hlba : lba ≠ 0)
    (hinit : (kfs2Init s₀ lba).1 = 1) (ops : List Kfs2Op) :
    (∀ pre filename post, ops = pre ++ Kfs2Op.openFile filename :: post →
      (Run.run Kfs2.step (kfs2Init s₀ lba).2 pre).OpenSound s₀.ide.disk filename
        (kfs2OpenFile (Run.run Kfs2.step (kfs2Init s₀ lba).2 pre) filename)) ∧
    (∀ pre mid post j, ops = pre ++ mid ++ post →
      ((Run.run Kfs2.step (kfs2Init s₀ lba).2 pre).handles j).Open →
      (∀ h, Kfs2Op.closeFile h ∈ mid → h.toNat ≠ j) →
      (Run.run Kfs2.step (kfs2Init s₀ lba).2 (pre ++ mid)).handles j =
        (Run.run Kfs2.step (kfs2Init s₀ lba).2 pre).handles j) := by
  obtain ⟨hl, hinv⟩ := kfs2Init_mounted hide hinit
  have hreach : ∀ pre, (Run.run Kfs2.step (kfs2Init s₀ lba).2 pre).Mounted s₀.ide.disk lba :=
    Run.run_invariant_of_forall (fun s op hs => hs.step hlba op) ⟨hinv, hl⟩
  refine ⟨fun pre filename post _ => ?_, fun pre mid post j _ hopen hmid => ?_⟩
  · obtain ⟨hinv', hl'⟩ := hreach pre
    exact kfs2OpenFile_sound hinv' (by rw [hl']; exact hlba) filename
  · rw [Run.run_append]
    exact Kfs2.run_handles_of_open hlba (hreach pre) hopen hmid

/-- A drive with a KFS2 file system of one cluster at sector `1`, the cluster holding a file
named `i`. -/
def kfs2OneFileIde : Ide where
  disk := fun a =>
    if 1024 ≤ a then ofList [1, 0, 0, 0, 0, 0, 0, 0, 0x69] (a - 1024)
    else if 512 ≤ a then ofList [0x27, 0x96, 0x01, 0x37, 1] (a - 512)
    else 0
  fault := fun _ => false
  calls := 0

/-- Opening the file of that drive gives the sound handle `0`. -/
theorem kfs2_open_sound_one_file :
    (kfs2OpenFile (kfs2Init (Kfs2.boot kfs2OneFileIde) 1).2 (ofList [0x69])).1 = 0 ∧
    (kfs2Init (Kfs2.boot kfs2OneFileIde) 1).2.OpenSound kfs2OneFileIde.disk (ofList [0x69])
      (kfs2OpenFile (kfs2Init (Kfs2.boot kfs2OneFileIde) 1).2 (ofList [0x69])) :=
  ⟨by decide +kernel,
    (kfs2_open_sound (Kfs2.boot kfs2OneFileIde) 1 (fun _ => rfl) (by decide) (by decide +kernel)
      [.openFile (ofList [0x69])]).1 [] _ [] rfl⟩

/-- The globals of that drive after the mount and the open: the file is in slot `0`. -/
lemma kfs2OneFile_opened {s : Kfs2}
    (hs : s = Run.run Kfs2.step (Kfs2.boot kfs2OneFileIde) [.init 1, .openFile (ofList [0x69])]) :
    s.lba = 1 ∧ s.clusterN = 1 ∧ s.handles 0 = ⟨1, 0⟩ := by
  rw [hs]
  decide +kernel

/-! ## The first clusters -/

/-- The open files of a mounted file system start at a cluster in range. -/
def Kfs2.StartsInside (s : Kfs2) : Prop :=
  s.lba ≠ 0 → ∀ j < KFS2_MAX_FILES, (s.handles j).Open → (s.handles j).startclstr < s.clusterN

/-- After mounting, no file is open. -/
lemma Kfs2.StartsInside.init (h : s.StartsInside) (lba : LONG) :
    (kfs2Init s lba).2.StartsInside := by
  rw [kfs2Init]
  by_cases hm : s.lba ≠ 0
  · rw [if_pos hm]
    exact h
  · rw [if_neg hm]
    dsimp only [Kfs2.puts]
    split_ifs
    · exact fun h0 => absurd rfl h0
    · exact fun h0 => absurd rfl h0
    · intro _ j hj hopen
      dsimp only at hopen
      rw [if_pos hj] at hopen
      exact absurd hopen (by decide)

/-- Opening a file keeps the first clusters in range. -/
lemma Kfs2.StartsInside.openFile (h : s.StartsInside) (hinv : s.Inv disk) (filename : ℕ → BYTE) :
    (kfs2OpenFile s filename).2.StartsInside := by
  obtain ⟨hl, hn⟩ := kfs2OpenScan_frame filename s.clusterN.toNat s 0
  intro hlba j hj hopen
  rw [kfs2OpenFile] at hlba hopen ⊢
  rw [hl] at hlba
  rw [hn]
  rcases kfs2OpenScan_cases filename s.clusterN.toNat s 0 hinv hlba (by simp) with
    ⟨c, hc, k, -, -, -, -, -, hh⟩ | ⟨-, -, hh, -⟩ | ⟨-, hh, -⟩
  · rw [hh] at hopen ⊢
    by_cases hjk : j = k
    · rw [hjk, Function.update_self]
      exact hc
    · rw [Function.update_of_ne hjk] at hopen ⊢
      exact h hlba j hj hopen
  · rw [hh] at hopen ⊢
    exact h hlba j hj hopen
  · rw [hh] at hopen ⊢
    exact h hlba j hj hopen

/-- Every call keeps the first clusters in range. -/
lemma Kfs2.StartsInside.step (h : s.StartsInside) (hinv : s.Inv disk) (op : Kfs2Op) :
    (s.step op).StartsInside := by
  cases op with
  | init lba => exact h.init lba
  | readCluster n =>
    intro hlba
    rw [Kfs2.step, kfs2ReadCluster_lba] at hlba
    rw [Kfs2.step, kfs2ReadCluster_handles, kfs2ReadCluster_clusterN]
    exact h hlba
  | openFile filename => exact h.openFile hinv filename
  | readByte clstrN₀ stray file n off =>
    obtain ⟨hh, hl, hn⟩ := kfs2ReadByte_frame s clstrN₀ stray file n off
    intro hlba
    rw [Kfs2.step, hl] at hlba
    rw [Kfs2.step, hh, hn]
    exact h hlba
  | closeFile handle =>
    rw [Kfs2.step, kfs2CloseFile]
    split_ifs
    · exact h
    · intro hlba j hj hopen
      by_cases hjk : j = handle.toNat
      · simp only [hjk, Function.update_self] at hopen
        exact absurd hopen (by decide)
      · simp only [Function.update_of_ne hjk] at hopen ⊢
        exact h hlba j hj hopen
    · exact h

/-- **Every state that is reached from boot**: the buffer holds what its index says, and open files
start at a cluster in range. -/
lemma Kfs2.reachable {ide : Ide} (hide : ide.Faithful) (ops : List Kfs2Op) :
    (Run.run Kfs2.step (Kfs2.boot ide) ops).Inv ide.disk ∧
    (Run.run Kfs2.step (Kfs2.boot ide) ops).StartsInside :=
  Run.run_invariant_of_forall (I := fun s : Kfs2 => s.Inv ide.disk ∧ s.StartsInside)
    (fun _ op hs => ⟨Kfs2.inv_step hs.1 op, hs.2.step hs.1 op⟩)
    ⟨Kfs2.inv_boot hide, fun h0 => absurd rfl h0⟩ ops

/-! ## Bad handles

`kfs2_close_file` refuses a handle that is out of range. `kfs2_read_byte` looks at the entry of the
table first, wherever it is. -/

/-- The entries of `kfs2_handles` that `kfs2_read_byte(file, …)` looks at. -/
def kfs2ReadHandles (file : LONG) : List ℕ := [file.toNat]

/-- The call looks at no entries of `kfs2_handles` but those of `l`: whatever the others hold, it
does the same, and it leaves the table alone. -/
def ReadUsesOnly (s : Kfs2) (clstrN₀ : LONG) (stray : Kfs2Below) (file n off : LONG) (l : List ℕ) :
    Prop :=
  ∀ h : ℕ → Kfs2File, (∀ j ∈ l, h j = s.handles j) →
    kfs2ReadByte { s with handles := h } clstrN₀ stray file n off =
      ((kfs2ReadByte s clstrN₀ stray file n off).1, (kfs2ReadByte s clstrN₀ stray file n off).2.1,
        { (kfs2ReadByte s clstrN₀ stray file n off).2.2 with handles := h })

lemma kfs2Walk_withHandles (h : ℕ → Kfs2File) (clstrN : ℕ) : ∀ (s : Kfs2) (clstr : LONG),
    kfs2Walk { s with handles := h } clstr clstrN =
      ({ (kfs2Walk s clstr clstrN).1 with handles := h }, (kfs2Walk s clstr clstrN).2) := by
  induction clstrN with
  | zero => exact fun s clstr => rfl
  | succ clstrN ih => exact fun s clstr => ih (kfs2ReadCluster s clstr) _

lemma kfs2ReadLoop_withHandles (h : ℕ → Kfs2File) (start : LONG) (stray : Kfs2Below)
    (n : ℕ) : ∀ (i clstr clstrN : LONG) (s : Kfs2),
      kfs2ReadLoop start stray n i clstr clstrN { s with handles := h } =
        ({ (kfs2ReadLoop start stray n i clstr clstrN s).1 with handles := h },
          (kfs2ReadLoop start stray n i clstr clstrN s).2) := by
  induction n with
  | zero => exact fun i clstr clstrN s => rfl
  | succ n ih =>
    intro i clstr clstrN s
    rw [kfs2ReadLoop, kfs2ReadLoop]
    dsimp only
    rw [kfs2Walk_withHandles, ih]
    rfl

/-- A read looks at no entry of the table but that of its handle. -/
lemma kfs2ReadByte_usesOnly (s : Kfs2) (clstrN₀ : LONG) (stray : Kfs2Below) (file n off : LONG) :
    ReadUsesOnly s clstrN₀ stray file n off (kfs2ReadHandles file) := by
  intro h hsame
  have hslot : h file.toNat = s.handles file.toNat := hsame _ (List.mem_singleton.mpr rfl)
  rw [kfs2ReadByte, kfs2ReadByte]
  simp only [hslot]
  split_ifs
  · rfl
  · rw [kfs2ReadLoop_withHandles]

/-- Reading from `file` looks at entries inside of the table only, and if `file` is no open file it
returns `0` and changes nothing but `kfs2_err`. -/
def RejectsBadHandle (s : Kfs2) (clstrN₀ : LONG) (stray : Kfs2Below) (file n off : LONG) :
    Prop :=
  ReadUsesOnly s clstrN₀ stray file n off (kfs2ReadHandles file) ∧
  (∀ j ∈ kfs2ReadHandles file, j < KFS2_MAX_FILES) ∧
  (¬(file.toNat < KFS2_MAX_FILES ∧ (s.handles file.toNat).Open) →
    kfs2ReadByte s clstrN₀ stray file n off = (0, [], { s with err := ENOENT }))

/-- **When bad handles are rejected.** For every table, every handle and every read: the call stays
inside of the table and rejects a handle that is not open iff the handle is in range. -/
theorem kfs2_read_byte_rejects_iff (s : Kfs2) (clstrN₀ : LONG) (stray : Kfs2Below)
    (file n off : LONG) :
    RejectsBadHandle s clstrN₀ stray file n off ↔ file.toNat < KFS2_MAX_FILES := by
  constructor
  · rintro ⟨-, hinside, -⟩
    exact hinside _ (List.mem_singleton.mpr rfl)
  · intro hfile
    refine ⟨kfs2ReadByte_usesOnly s clstrN₀ stray file n off, fun j hj => ?_, fun hbad => ?_⟩
    · rw [List.mem_singleton.mp hj]
      exact hfile
    · have hclosed : (s.handles file.toNat).flags &&& 1 = 0 := by
        by_contra hopen
        exact hbad ⟨hfile, hopen⟩
      rw [kfs2ReadByte]
      exact if_pos hclosed

/-- The handle returned by a failed `kfs2_open_file` is out of range. If the memory there has bit
`0` set, reading from it returns bytes of cluster `0`. -/
theorem kfs2_read_byte_failed_open :
    let r := kfs2OpenFile (kfs2Init (Kfs2.boot kfs2OneFileIde) 1).2 (ofList [0x6a])
    r.1 = 0xffffffff ∧ ¬RejectsBadHandle r.2 0 (fun _ _ _ _ => 0) r.1 1 0 ∧
    (kfs2ReadByte { r.2 with handles := Function.update r.2.handles r.1.toNat ⟨1, 0⟩ } 0
      (fun _ _ _ _ => 0) r.1 1 0).1 = 1 := by
  intro r
  have hr : r.1 = 0xffffffff := by decide +kernel
  refine ⟨hr, fun h => ?_, by decide +kernel⟩
  have hlt := h.2.1 _ (List.mem_singleton.mpr rfl)
  rw [hr] at hlt
  exact absurd hlt (by decide)

end Korolev
