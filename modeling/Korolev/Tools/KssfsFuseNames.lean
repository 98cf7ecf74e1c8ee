import Korolev.Library.Run
import Korolev.Tools.KssfsFuse

set_option relaxedAutoImplicit false
set_option autoImplicit false

/-!
# The names of a mounted image

A cluster is in use if its type is not `KSSFS_CLSTR_FREE`, and the names of the clusters in use
should be distinct. Five operations of `tools/kssfs_fuse.c` could break this: opening (which
creates a file that is not there), creating, writing, renaming and unlinking. None does, and
files are created in free clusters only.

Names are compared by `strncmp` over 256 bytes, and stored without a terminator if they are as
long as that; both fit together because `strncmp` stops there too (`Korolev.Host.eqUpTo_cut`).

## Main definitions

* `Korolev.Fuse.Allocated`, `Korolev.Fuse.UniqueNames` — the invariant.
* `Korolev.Fuse.NameOp` — the operations, with `Korolev.Fuse.NameOp.Valid` and
  `Korolev.Fuse.NameOp.Right` for what they get and what they have to do.

## Main results

* `Korolev.Fuse.kssfsCreate_cases`, `Korolev.Fuse.kssfsRename_cases`,
  `Korolev.Fuse.kssfsUnlink_cases` — everything these operations can do.
* `Korolev.Fuse.fuse_names_unique` — in every run, names stay unique and allocation is safe.
-/

namespace Korolev.Fuse

open Bytes CStr

/-! ## The invariant -/

/-- The cluster holds a file. -/
def Allocated (s : Mount) (c : ℕ) : Prop :=
  kssfsType (cluster s.stream.file c) ≠ KSSFS_CLSTR_FREE

/-- The name in the header of a cluster. -/
def nameOf (s : Mount) (c : ℕ) : ℕ → BYTE := kssfsFilename (cluster s.stream.file c)

/-- No two clusters in use have equal names. -/
def UniqueNames (s : Mount) : Prop :=
  ∀ c < s.clusterN.toNat, ∀ d < s.clusterN.toNat, c ≠ d → Allocated s c → Allocated s d →
    Host.strncmp (nameOf s c) (nameOf s d) 256 ≠ 0

/-- Names stay unique if clusters only fall free, and the others keep their names. -/
lemma UniqueNames.mono {s s' : Mount} (h : UniqueNames s) (hN : s'.clusterN = s.clusterN)
    (hkeep : ∀ c < s.clusterN.toNat, Allocated s' c →
      Allocated s c ∧ ∀ k < 256, nameOf s' c k = nameOf s c k) : UniqueNames s' := by
  intro c hc d hd hne hac had heq
  rw [hN] at hc hd
  obtain ⟨hac', hnc⟩ := hkeep c hc hac
  obtain ⟨had', hnd⟩ := hkeep d hd had
  refine h c hc d hd hne hac' had' ?_
  rw [Host.strncmp_eq_zero_iff] at heq ⊢
  have hc' : EqUpTo 256 (nameOf s c) (nameOf s' c) := .of_forall fun k hk => (hnc k hk).symm
  exact (hc'.trans heq).trans (.of_forall hnd)

/-! ## Operations -/

/-- The operations that concern names. A file is created after an attribute query. -/
inductive NameOp where
  | openFile (path : ℕ → BYTE) (fh : QWORD)
  | create (e : Env) (path : ℕ → BYTE) (fh : QWORD)
  | write (fh : QWORD) (fbuf : ℕ → BYTE) (size offset : QWORD)
  | rename (path path' : ℕ → BYTE)
  | unlink (path : ℕ → BYTE)

/-- Creating comes after an attribute query that failed; writes are inside of the cluster. -/
def NameOp.Valid (s : Mount) : NameOp → Prop
  | .create e path _ => (kssfsGetattr e s path).1 = -ENOENT.toNat
  | .write _ _ size offset => offset.toNat + size.toNat ≤ 7680
  | _ => True

/-- The mounted image after an operation. -/
def Mount.nameStep (s : Mount) : NameOp → Mount
  | .openFile path fh => (kssfsOpen s path fh).2.2
  | .create e path fh => (kssfsCreate (kssfsGetattr e s path).2.2 path fh).2.2
  | .write fh fbuf size offset => (kssfsWrite s fh fbuf size offset).2
  | .rename path path' => (kssfsRename s path path').2
  | .unlink path => (kssfsUnlink s path).2

/-- A cluster in use has the name. -/
def Matches (s : Mount) (name : ℕ → BYTE) (c : ℕ) : Prop :=
  c < s.clusterN.toNat ∧ Allocated s c ∧ Host.strncmp name (nameOf s c) 256 = 0

/-- What opening or creating a file, with the result `r`, has to do to the image `s`. -/
structure Provides (s : Mount) (name : ℕ → BYTE) (r : ℤ × QWORD × Mount) : Prop where
  /-- clusters in use are not touched -/
  safe : ∀ c < s.clusterN.toNat, Allocated s c →
    ∀ a < 8192, cluster r.2.2.stream.file c a = cluster s.stream.file c a
  /-- a successful call returns the handle of a cluster in use with the name -/
  found : r.1 = 0 → Matches r.2.2 name r.2.1.toNat
  /-- which is the old one, with the image unchanged, if there was one -/
  existing : ∀ c, Matches s name c →
    r.1 = 0 ∧ Matches s name r.2.1.toNat ∧ r.2.2.stream.file = s.stream.file
  /-- and the first free one otherwise -/
  fresh : r.1 = 0 → (∀ c, ¬Matches s name c) →
    ¬Allocated s r.2.1.toNat ∧ ∀ c < r.2.1.toNat, Allocated s c
  /-- the call fails iff there is neither -/
  full : r.1 = -ENOSPC.toNat ↔
    (∀ c, ¬Matches s name c) ∧ ∀ c < s.clusterN.toNat, Allocated s c
  /-- with the image unchanged -/
  unchanged : r.1 = -ENOSPC.toNat → r.2.2.stream.file = s.stream.file

/-- What an operation has to do besides keeping names unique. -/
def NameOp.Right (s : Mount) : NameOp → Prop
  | .openFile path fh => Provides s (tail path) (kssfsOpen s path fh)
  | .create e path fh =>
    Provides s (tail path) (kssfsCreate (kssfsGetattr e s path).2.2 path fh)
  | _ => True

/-! ## Creating a file -/

/-- Both ways to say that a cluster in use has a name. -/
lemma matches_iff {s : Mount} {name : ℕ → BYTE} {c : ℕ} : Matches s name c ↔
    c < s.clusterN.toNat ∧ inUseAs name (cluster s.stream.file c) = true := by
  rw [Matches, inUseAs_iff, Host.strncmp_eq_zero_iff]
  rfl

/-- Which clusters have a name depends on the image only. -/
lemma SameImage.matches_iff {s s' : Mount} (h : SameImage s s') {name : ℕ → BYTE} {c : ℕ} :
    Matches s' name c ↔ Matches s name c := by
  rw [Fuse.matches_iff, Fuse.matches_iff, h.file_eq, h.clusterN_eq]

/-- The file of the image with one file is found under `/a`. -/
lemma emptyFileImage_matches : Matches emptyFileImage (tail (ofList [47, 97])) 0 :=
  matches_iff.mpr ⟨by decide, by decide +kernel⟩

/-- A cluster after a file was created in it. -/
def createIn (m path : ℕ → BYTE) : ℕ → BYTE :=
  Host.strncpy (blit m 0 4 (bytes32 KSSFS_CLSTR_COM)) 6 (tail path) 256

lemma createIn_type (m path : ℕ → BYTE) : kssfsType (createIn m path) = KSSFS_CLSTR_COM := by
  rw [kssfsType, createIn, Host.strncpy, le32_blit_of_disjoint (by omega), le32_blit_bytes32]

/-- The new file has the name it was created with, as far as names go. -/
lemma createIn_filename (m path : ℕ → BYTE) :
    EqUpTo 256 (tail path) (kssfsFilename (createIn m path)) := by
  refine (Host.eqUpTo_cut 256 (tail path)).trans (.of_forall fun k hk => ?_)
  rw [kssfsFilename, createIn, Host.strncpy, blit_add hk]

/-- A file was created in cluster `j`, the first free one. -/
structure Created (s : Mount) (path : ℕ → BYTE) (j : ℕ) (r : ℤ × QWORD × Mount) : Prop where
  result : r.1 = 0
  handle : r.2.1.toNat = j
  lt : j < s.clusterN.toNat
  free : ¬Allocated s j
  first : ∀ c < j, Allocated s c
  clusterN_eq : r.2.2.clusterN = s.clusterN
  complete : Complete r.2.2
  clusters : ∀ c < s.clusterN.toNat, ∀ a < 8192, cluster r.2.2.stream.file c a =
    if c = j then createIn (cluster s.stream.file j) path a else cluster s.stream.file c a

/-- **Everything creating a file can do**: fail, with all clusters in use, or create it in the
first free cluster. -/
lemma kssfsCreate_cases {s : Mount} (h : Complete s) (path : ℕ → BYTE) (fh : QWORD) :
    ((∀ c < s.clusterN.toNat, Allocated s c) ∧ (kssfsCreate s path fh).1 = -ENOSPC.toNat ∧
      SameImage s (kssfsCreate s path fh).2.2) ∨
    ∃ j, Created s path j (kssfsCreate s path fh) := by
  have hfree : OfCluster fun m => decide (kssfsType m = KSSFS_CLSTR_FREE) := by
    intro m m' hm
    simp only [kssfsType_congr hm]
  have hN := h.clusterN_le
  unfold kssfsCreate
  obtain ⟨s', heq, hsame, hall⟩ | ⟨j, s', heq, hsame, hj, htype, hbefore, hbuf⟩ :=
    scan_cases hfree h
  · rw [heq]
    exact .inl ⟨fun c hc => of_decide_eq_false (hall c hc), rfl, hsame⟩
  · have hval : (UInt32.ofNat j).toNat = j := toNat_ofNat_of_lt (by omega)
    have hs' : Complete s' := h.of_same hsame
    rw [heq]
    refine .inr ⟨j, rfl, ?_, hj, ?_, fun c hc => ?_, hsame.clusterN_eq, ?_, fun c hc a ha => ?_⟩
    · rw [UInt32.toNat_toUInt64, hval]
    · exact not_not.mpr (of_decide_eq_true htype)
    · exact of_decide_eq_false (hbefore c hc)
    · exact kssfsWriteCluster_complete (hs'.withBuf _) _ _
    · have hc' : c < s'.clusterN.toNat := by
        rw [hsame.clusterN_eq]
        exact hc
      show cluster (kssfsWriteCluster { s' with buf := createIn s'.buf path } (UInt32.ofNat j)
        (createIn s'.buf path)).stream.file c a = _
      rw [kssfsWriteCluster_cluster (hs'.withBuf (createIn s'.buf path)) _ _ hc' ha, hval,
        Nat.mod_eq_of_lt (show j < 2 ^ 19 by omega), hsame.file_eq]
      split_ifs
      · simp only [createIn, Host.strncpy, blit, hbuf a ha]
      · rfl

namespace Created

variable {s : Mount} {path : ℕ → BYTE} {j : ℕ} {r : ℤ × QWORD × Mount}

/-- The new cluster is in use and has the name. -/
lemma newMatches (h : Created s path j r) : Matches r.2.2 (tail path) j := by
  have hnew : ∀ a < 8192, cluster r.2.2.stream.file j a =
      createIn (cluster s.stream.file j) path a := by
    intro a ha
    rw [h.clusters j h.lt a ha, if_pos rfl]
  rw [matches_iff, inUseAs_iff, h.clusterN_eq, kssfsType_congr hnew, createIn_type]
  refine ⟨h.lt, by decide, (createIn_filename (cluster s.stream.file j) path).trans ?_⟩
  exact .of_forall fun k hk => (hnew (6 + k) (by omega)).symm

/-- The other clusters are as they were. -/
lemma cluster_of_ne (h : Created s path j r) {c : ℕ} (hc : c < s.clusterN.toNat) (hne : c ≠ j) :
    ∀ a < 8192, cluster r.2.2.stream.file c a = cluster s.stream.file c a := by
  intro a ha
  rw [h.clusters c hc a ha, if_neg hne]

end Created

/-- What a cluster is used for depends on its bytes. -/
lemma allocated_congr {s s' : Mount} {c : ℕ}
    (h : ∀ a < 8192, cluster s'.stream.file c a = cluster s.stream.file c a) :
    (Allocated s' c ↔ Allocated s c) ∧ ∀ k < 256, nameOf s' c k = nameOf s c k := by
  refine ⟨?_, fun k hk => h (6 + k) (by omega)⟩
  rw [Allocated, Allocated, kssfsType_congr h]

/-- Creating a file whose name no cluster in use has keeps names unique.

**Proof sketch.** A clash would involve the new cluster; its name is equal to the one looked for,
so the other cluster would have had that name before. -/
lemma Created.uniqueNames {s : Mount} {path : ℕ → BYTE} {j : ℕ} {r : ℤ × QWORD × Mount}
    (h : Created s path j r) (huniq : UniqueNames s) (hnew : ∀ c, ¬Matches s (tail path) c) :
    UniqueNames r.2.2 := by
  have hclash : ∀ d < s.clusterN.toNat, d ≠ j → Allocated r.2.2 d →
      ¬EqUpTo 256 (nameOf r.2.2 j) (nameOf r.2.2 d) := by
    intro d hd hne had heq
    obtain ⟨hiff, hname⟩ := allocated_congr (h.cluster_of_ne hd hne)
    refine hnew d ⟨hd, hiff.mp had, ?_⟩
    rw [Host.strncmp_eq_zero_iff]
    have hj : EqUpTo 256 (tail path) (nameOf r.2.2 j) :=
      (Host.strncmp_eq_zero_iff _ _ _).mp h.newMatches.2.2
    exact (hj.trans heq).trans (.of_forall hname)
  intro c hc d hd hne hac had heq
  rw [h.clusterN_eq] at hc hd
  rw [Host.strncmp_eq_zero_iff] at heq
  by_cases hcj : c = j
  · subst hcj
    exact hclash d hd (Ne.symm hne) had heq
  · by_cases hdj : d = j
    · subst hdj
      exact hclash c hc hne hac heq.symm
    · obtain ⟨hiffc, hnamec⟩ := allocated_congr (h.cluster_of_ne hc hcj)
      obtain ⟨hiffd, hnamed⟩ := allocated_congr (h.cluster_of_ne hd hdj)
      refine huniq c hc d hd hne (hiffc.mp hac) (hiffd.mp had) ?_
      rw [Host.strncmp_eq_zero_iff]
      have hc' : EqUpTo 256 (nameOf s c) (nameOf r.2.2 c) :=
        .of_forall fun k hk => (hnamec k hk).symm
      exact (hc'.trans heq).trans (.of_forall hnamed)

/-- Creating a file whose name no cluster in use has does what it has to. -/
lemma kssfsCreate_provides {s : Mount} (h : Complete s) {path : ℕ → BYTE} (fh : QWORD)
    (hnew : ∀ c, ¬Matches s (tail path) c) :
    Provides s (tail path) (kssfsCreate s path fh) := by
  have hres : (0 : ℤ) ≠ -ENOSPC.toNat := by decide
  rcases kssfsCreate_cases h path fh with ⟨hall, hr, hsame⟩ | ⟨j, hj⟩
  · constructor
    case safe => exact fun c _ _ a _ => by rw [hsame.file_eq]
    case found => exact fun h0 => absurd (h0.symm.trans hr) hres
    case existing => exact fun c hc => absurd hc (hnew c)
    case fresh => exact fun h0 => absurd (h0.symm.trans hr) hres
    case full => exact iff_of_true hr ⟨hnew, hall⟩
    case unchanged => exact fun _ => hsame.file_eq
  · have hne : (kssfsCreate s path fh).1 ≠ -ENOSPC.toNat := by
      rw [hj.result]
      exact hres
    constructor
    case safe =>
      intro c hc hac
      exact hj.cluster_of_ne hc fun hcj => hj.free (hcj ▸ hac)
    case found =>
      intro _
      rw [hj.handle]
      exact hj.newMatches
    case existing => exact fun c hc => absurd hc (hnew c)
    case fresh =>
      intro _ _
      rw [hj.handle]
      exact ⟨hj.free, hj.first⟩
    case full => exact iff_of_false hne fun hfull => hj.free (hfull.2 j hj.lt)
    case unchanged => exact fun hr => absurd hr hne

/-- What a call has to do depends on the image before it only. -/
lemma Provides.of_same {s s' : Mount} {name : ℕ → BYTE} {r : ℤ × QWORD × Mount}
    (h : Provides s' name r) (hsame : SameImage s s') : Provides s name r := by
  have halloc : ∀ c, Allocated s' c ↔ Allocated s c := by
    intro c
    rw [Allocated, Allocated, hsame.file_eq]
  have hmatch : ∀ c, Matches s' name c ↔ Matches s name c := fun c => hsame.matches_iff
  obtain ⟨hsafe, hfound, hexisting, hfresh, hfull, hunchanged⟩ := h
  simp only [halloc, hmatch, hsame.file_eq, hsame.clusterN_eq] at hsafe hexisting hfresh hfull
  rw [hsame.file_eq] at hunchanged
  exact ⟨hsafe, hfound, hexisting, hfresh, hfull, hunchanged⟩

/-! ## Renaming and unlinking -/

/-- **Everything renaming can do**: fail, with no cluster in use of that name, or find one. The
image is only read. -/
lemma kssfsRename_cases {s : Mount} (h : Complete s) (path path' : ℕ → BYTE) :
    SameImage s (kssfsRename s path path').2 ∧
    ((∀ c, ¬Matches s (tail path) c) ∧ (kssfsRename s path path').1 = -ENOENT.toNat ∨
      (∃ c, Matches s (tail path) c) ∧ (kssfsRename s path path').1 = 0) := by
  unfold kssfsRename
  obtain ⟨s', heq, hsame, hall⟩ | ⟨j, s', heq, hsame, hj, hin, -⟩ :=
    scan_cases (inUseAs_ofCluster (tail path)) h
  · rw [heq]
    refine ⟨hsame, .inl ⟨fun c hc => ?_, rfl⟩⟩
    obtain ⟨hlt, hin⟩ := matches_iff.mp hc
    rw [hall c hlt] at hin
    exact absurd hin (by decide)
  · rw [heq]
    exact ⟨⟨hsame.file_eq, hsame.clusterN_eq⟩, .inr ⟨⟨j, matches_iff.mpr ⟨hj, hin⟩⟩, rfl⟩⟩

/-- Cluster `j` was cleared. -/
structure Cleared (s : Mount) (j : ℕ) (r : ℤ × Mount) : Prop where
  result : r.1 = 0
  clusterN_eq : r.2.clusterN = s.clusterN
  complete : Complete r.2
  clusters : ∀ c < s.clusterN.toNat, ∀ a < 8192, cluster r.2.stream.file c a =
    if c = j then 0 else cluster s.stream.file c a

/-- **Everything unlinking can do**: fail, with no cluster in use named by the whole path, or clear
one that is. -/
lemma kssfsUnlink_cases {s : Mount} (h : Complete s) (path : ℕ → BYTE) :
    ((∀ c, ¬Matches s path c) ∧ (kssfsUnlink s path).1 = -ENOENT.toNat ∧
      SameImage s (kssfsUnlink s path).2) ∨
    ∃ j, Matches s path j ∧ Cleared s j (kssfsUnlink s path) := by
  have hused : OfCluster fun buf =>
      decide (kssfsType buf ≠ KSSFS_CLSTR_FREE) && nameIs path buf := inUseAs_ofCluster path
  have hN := h.clusterN_le
  unfold kssfsUnlink
  dsimp only
  obtain ⟨s', heq, hsame, hall⟩ | ⟨j, s', heq, hsame, hj, hin, -⟩ := scan_cases hused h
  · rw [heq]
    refine .inl ⟨fun c hc => ?_, rfl, hsame⟩
    obtain ⟨hlt, hin⟩ := matches_iff.mp hc
    have hnone : inUseAs path (cluster s.stream.file c) = false := hall c hlt
    rw [hin] at hnone
    exact absurd hnone (by decide)
  · have hval : (UInt32.ofNat j).toNat = j := toNat_ofNat_of_lt (by omega)
    have hclear := (h.of_same hsame).withBuf (blit s'.buf 0 8192 fun _ => 0)
    rw [heq]
    refine .inr ⟨j, matches_iff.mpr ⟨hj, hin⟩, rfl, hsame.clusterN_eq,
      kssfsWriteCluster_complete hclear _ _, fun c hc a ha => ?_⟩
    rw [kssfsWriteCluster_cluster hclear _ _ (by rw [hsame.clusterN_eq]; exact hc) ha, hval,
      Nat.mod_eq_of_lt (show j < 2 ^ 19 by omega), hsame.file_eq,
      blit_of_mem (by omega) (by omega)]

/-! ## One operation -/

/-- The invariant of the runs: a complete image with unique names. -/
structure NamesInv (s : Mount) : Prop where
  complete : Complete s
  unique : UniqueNames s

namespace NamesInv

variable {s : Mount}

/-- The invariant is about the image. -/
lemma of_same {s' : Mount} (h : NamesInv s) (hsame : SameImage s s') : NamesInv s' := by
  refine ⟨h.complete.of_same hsame, h.unique.mono hsame.clusterN_eq fun c _ hac => ?_⟩
  rw [Allocated, hsame.file_eq] at hac
  refine ⟨hac, fun k _ => ?_⟩
  rw [nameOf, nameOf, hsame.file_eq]

/-- Creating a file whose name no cluster in use has. -/
lemma create (h : NamesInv s) {path : ℕ → BYTE} (fh : QWORD)
    (hnew : ∀ c, ¬Matches s (tail path) c) : NamesInv (kssfsCreate s path fh).2.2 := by
  rcases kssfsCreate_cases h.complete path fh with ⟨-, -, hsame⟩ | ⟨j, hj⟩
  · exact h.of_same hsame
  · exact ⟨hj.complete, hj.uniqueNames h.unique hnew⟩

/-- Creating a file in a state with the image of `s`, if no cluster in use of `s` has its
name. -/
lemma createFrom {s' : Mount} (h : NamesInv s) (hsame : SameImage s s') {path : ℕ → BYTE}
    (fh : QWORD) (hnew : ∀ c, ¬Matches s (tail path) c) :
    Provides s (tail path) (kssfsCreate s' path fh) ∧ NamesInv (kssfsCreate s' path fh).2.2 := by
  have hs' : NamesInv s' := h.of_same hsame
  have hnew' : ∀ c, ¬Matches s' (tail path) c := fun c hc => hnew c (hsame.matches_iff.mp hc)
  exact ⟨(kssfsCreate_provides hs'.complete fh hnew').of_same hsame, hs'.create fh hnew'⟩

/-- Opening a file: it is found, or created because no cluster in use has the name. -/
lemma openFile (h : NamesInv s) (path : ℕ → BYTE) (fh : QWORD) :
    Provides s (tail path) (kssfsOpen s path fh) ∧ NamesInv (kssfsOpen s path fh).2.2 := by
  have hres : (0 : ℤ) ≠ -ENOSPC.toNat := by decide
  have hN := h.complete.clusterN_le
  unfold kssfsOpen
  obtain ⟨s', heq, hsame, hall⟩ | ⟨j, s', heq, hsame, hj, hin, -⟩ :=
    scan_cases (inUseAs_ofCluster (tail path)) h.complete
  · rw [heq]
    apply h.createFrom hsame
    intro c hc
    obtain ⟨hlt, hin⟩ := matches_iff.mp hc
    simp [hall c hlt] at hin
  · have hval : (UInt32.ofNat j).toUInt64.toNat = j := by
      rw [UInt32.toNat_toUInt64, toNat_ofNat_of_lt (by omega)]
    have hmatch : Matches s (tail path) j := matches_iff.mpr ⟨hj, hin⟩
    have hmatch' : Matches s' (tail path) j := by
      rw [matches_iff, hsame.file_eq, hsame.clusterN_eq]
      exact ⟨hj, hin⟩
    rw [heq]
    refine ⟨?_, h.of_same hsame⟩
    constructor
    case safe => exact fun c _ _ a _ => by rw [hsame.file_eq]
    case found => exact fun _ => by rw [hval]; exact hmatch'
    case existing => exact fun _ _ => ⟨rfl, by rw [hval]; exact hmatch, hsame.file_eq⟩
    case fresh => exact fun _ hno => absurd hmatch (hno j)
    case full => exact iff_of_false hres fun hfull => hfull.1 j hmatch
    case unchanged => exact fun _ => hsame.file_eq

/-- Creating a file after an attribute query failed. The query does not look at the type, so a
failed one says more than is needed. -/
lemma createAfterGetattr (h : NamesInv s) (e : Env) {path : ℕ → BYTE} (fh : QWORD)
    (hget : (kssfsGetattr e s path).1 = -ENOENT.toNat) :
    Provides s (tail path) (kssfsCreate (kssfsGetattr e s path).2.2 path fh) ∧
    NamesInv (kssfsCreate (kssfsGetattr e s path).2.2 path fh).2.2 := by
  obtain ⟨hsame, hnone⟩ := kssfsGetattr_spec e h.complete path
  apply h.createFrom hsame
  intro c hc
  obtain ⟨hlt, hin⟩ := matches_iff.mp hc
  simp [inUseAs, hnone hget c hlt] at hin

/-- A write changes neither types nor names, whatever its handle. -/
lemma write (h : NamesInv s) (fh : QWORD) (fbuf : ℕ → BYTE) (size offset : QWORD) :
    NamesInv (kssfsWrite s fh fbuf size offset).2 := by
  have hheader : ∀ c < s.clusterN.toNat, ∀ a < 512, a < 4 ∨ 6 ≤ a → _ = _ :=
    fun c hc a ha hlen => kssfsWrite_header h.complete fh fbuf size offset hc ha hlen
  refine ⟨kssfsWrite_complete h.complete fh fbuf size offset, ?_⟩
  refine h.unique.mono (kssfsWrite_clusterN s fh fbuf size offset) fun c hc hac => ?_
  refine ⟨fun hfree => hac (hfree ▸ le32_congr fun k hk => ?_), fun k hk => ?_⟩
  · exact hheader c hc (0 + k) (by omega) (by omega)
  · exact hheader c hc (6 + k) (by omega) (by omega)

/-- Renaming changes the buffer only. -/
lemma rename (h : NamesInv s) (path path' : ℕ → BYTE) : NamesInv (kssfsRename s path path').2 :=
  h.of_same (kssfsRename_cases h.complete path path').1

/-- Unlinking clears a cluster, which falls free. -/
lemma unlink (h : NamesInv s) (path : ℕ → BYTE) : NamesInv (kssfsUnlink s path).2 := by
  rcases kssfsUnlink_cases h.complete path with ⟨-, -, hsame⟩ | ⟨j, -, hj⟩
  · exact h.of_same hsame
  · refine ⟨hj.complete, h.unique.mono hj.clusterN_eq fun c hc hac => ?_⟩
    by_cases hcj : c = j
    · refine absurd (kssfsType_of_cleared fun a ha => ?_) hac
      rw [hj.clusters c hc a ha, if_pos hcj]
    · obtain ⟨hiff, hname⟩ := allocated_congr (s := s) fun a ha =>
        (hj.clusters c hc a ha).trans (if_neg hcj)
      exact ⟨hiff.mp hac, hname⟩

/-- **One operation**: it does what it has to, and keeps names unique. -/
lemma step (h : NamesInv s) {op : NameOp} (hop : op.Valid s) :
    op.Right s ∧ NamesInv (s.nameStep op) := by
  cases op with
  | openFile path fh => exact h.openFile path fh
  | create e path fh => exact h.createAfterGetattr e fh hop
  | write fh fbuf size offset => exact ⟨trivial, h.write fh fbuf size offset⟩
  | rename path path' => exact ⟨trivial, h.rename path path'⟩
  | unlink path => exact ⟨trivial, h.unlink path⟩

end NamesInv

/-! ## Runs -/

/-- **Unique names and safe allocation.** In every run of valid operations on a complete image
with unique names, names are unique after every operation, and opening and creating files find
the file with the name or take the first free cluster, without touching a cluster in use.

**Proof sketch.** `NamesInv` is kept by every operation, and gives what each has to do
(`NamesInv.step`). -/
theorem fuse_names_unique {s : Mount} (h : Complete s) (huniq : UniqueNames s) {ops : List NameOp}
    (hops : Run.Along Mount.nameStep (fun s op => op.Valid s) s ops) :
    Run.Along Mount.nameStep (fun s op => op.Right s ∧ UniqueNames (s.nameStep op)) s ops := by
  refine Run.along_of_invariant (I := NamesInv) ?_ ?_ ⟨h, huniq⟩ hops
  · intro s op hs hop
    exact (hs.step hop).2
  · intro s op hs hop
    obtain ⟨hright, hinv⟩ := hs.step hop
    exact ⟨hright, hinv.unique⟩

/-- Creating `/b`, opening `/a` (which is created, too), and writing to it. -/
theorem fuse_names_unique_create_open :
    Run.Along Mount.nameStep (fun s op => op.Right s ∧ UniqueNames (s.nameStep op)) freeImage
      [.create ⟨0, 0, 0⟩ (ofList [47, 98]) 0, .openFile (ofList [47, 97]) 0,
        .write 1 (fun _ => 1) 3 0] := by
  have hfree : ∀ c, ¬Allocated freeImage c := fun _ hac => hac rfl
  have hwrite : (0 : QWORD).toNat + (3 : QWORD).toNat ≤ 7680 := by decide
  have hget : (kssfsGetattr ⟨0, 0, 0⟩ freeImage (ofList [47, 98])).1 = -ENOENT.toNat := by decide
  exact fuse_names_unique freeImage_complete (fun c _ _ _ _ hac => absurd hac (hfree c))
    ⟨hget, trivial, hwrite, trivial⟩

end Korolev.Fuse
