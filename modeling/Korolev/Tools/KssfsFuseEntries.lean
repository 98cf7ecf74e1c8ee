import Korolev.Tools.KssfsFuseNames
import Korolev.Tools.KssfsFuseStore

set_option relaxedAutoImplicit false
set_option autoImplicit false

/-!
# Removing and renaming files of a mounted image

Two operations of `tools/kssfs_fuse.c` change which files there are without writing to them, and
neither does what it is for. `kssfs_unlink` looks for a file named by the whole path, with the slash
in front; files are created without it, so a file is never found, but one whose name starts with a
slash is removed in its stead. `kssfs_rename` changes the name in the buffer, which is not written
back: the next operation reads the old name again.

## Main definitions

* `Korolev.Fuse.SlashPath` — a path of a file in the root directory.
* `Korolev.Fuse.Unlinks`, `Korolev.Fuse.Renames` — what the operations are for.

## Main results

* `Korolev.Fuse.fuse_unlink_iff`, `Korolev.Fuse.fuse_rename_iff` — when they do it.
-/

namespace Korolev.Fuse

open Bytes CStr

/-! ## Removing a file -/

/-- A path `/name`: the name is not empty and has no slash before its terminator. -/
structure SlashPath (path : ℕ → BYTE) : Prop where
  slash : path 0 = 47
  name_ne : path 1 ≠ 0
  plain : ∀ k, (∀ j ≤ k, path (j + 1) ≠ 0) → path (k + 1) ≠ 47

/-- What unlinking `path`, with the result `r`, has to do to the image `s`: clear the cluster that
has the name, and no other, so that the name is not found any more; or fail, if there is none, and
leave the image alone. -/
structure Unlinks (s : Mount) (path : ℕ → BYTE) (r : ℤ × Mount) : Prop where
  present : ∀ c, Matches s (tail path) c → r.1 = 0 ∧
    (∀ a < 8192, cluster r.2.stream.file c a = 0) ∧
    (∀ d < s.clusterN.toNat, d ≠ c →
      ∀ a < 8192, cluster r.2.stream.file d a = cluster s.stream.file d a) ∧
    ∀ e, (kssfsGetattr e r.2 path).1 = -ENOENT.toNat
  absent : (∀ c, ¬Matches s (tail path) c) →
    r.1 = -ENOENT.toNat ∧ r.2.stream.file = s.stream.file

/-- A cluster is not named both by a path and by its name: they differ in the first byte. -/
lemma SlashPath.ne_of_matches {s : Mount} {path : ℕ → BYTE} (hpath : SlashPath path) {c d : ℕ}
    (hc : Matches s (tail path) c) (hd : Matches s path d) : c ≠ d := by
  rintro rfl
  have hname := (Host.strncmp_eq_zero_iff _ _ _).mp hc.2.2
  have hwhole := (Host.strncmp_eq_zero_iff _ _ _).mp hd.2.2
  have hfirst : path 1 = nameOf s c 0 := hname 0 (by omega) fun j hj => by omega
  have hslash : path 0 = nameOf s c 0 := hwhole 0 (by omega) fun j hj => by omega
  have hplain : path 1 ≠ 47 := hpath.plain 0 fun j hj => by
    rw [Nat.le_zero.mp hj]
    exact hpath.name_ne
  exact hplain (hfirst.trans (hslash.symm.trans hpath.slash))

/-- **When unlinking removes the named file.** For every complete image and every path `/name`:
unlinking does what it is for iff no file has the name, and none is named by the whole path.

**Proof sketch.** A file with the name would have to be cleared, but the cluster that is cleared, if
there is one, has another name. Without a file of the name the call has to fail, which it does iff
the lookup of the whole path fails. -/
theorem fuse_unlink_iff {s : Mount} (h : Complete s) {path : ℕ → BYTE} (hpath : SlashPath path) :
    Unlinks s path (kssfsUnlink s path) ↔
      (∀ c, ¬Matches s (tail path) c) ∧ ∀ c, ¬Matches s path c := by
  constructor
  · intro hr
    have hnone : ∀ c, ¬Matches s (tail path) c := by
      intro c hc
      refine hc.2.1 (kssfsType_of_cleared fun a ha => ?_)
      have hzero := (hr.present c hc).2.1 a ha
      rcases kssfsUnlink_cases h path with ⟨-, -, hsame⟩ | ⟨j, hj, hclear⟩
      · rwa [hsame.file_eq] at hzero
      · rwa [hclear.clusters c hc.1 a ha, if_neg (hpath.ne_of_matches hc hj)] at hzero
    refine ⟨hnone, fun c hc => ?_⟩
    have hfail := (hr.absent hnone).1
    rcases kssfsUnlink_cases h path with ⟨hall, -, -⟩ | ⟨j, -, hclear⟩
    · exact hall c hc
    · rw [hclear.result] at hfail
      exact absurd hfail (by decide)
  · rintro ⟨hname, hwhole⟩
    refine ⟨fun c hc => absurd hc (hname c), fun _ => ?_⟩
    rcases kssfsUnlink_cases h path with ⟨-, hres, hsame⟩ | ⟨j, hj, -⟩
    · exact ⟨hres, hsame.file_eq⟩
    · exact absurd hj (hwhole j)

/-- An image of two clusters, which hold empty files named `a` and `b`. -/
def twoFilesImage : Mount :=
  ⟨⟨⟨512 + 8192 * 2, fun k => if k = 512 ∨ k = 8704 then 1 else if k = 518 then 97
    else if k = 8710 then 98 else 0⟩, 0⟩, fun _ => 0, 2⟩

lemma twoFilesImage_complete : Complete twoFilesImage := ⟨by decide, by decide⟩

/-- A name that neither cluster has. -/
lemma twoFilesImage_not_matches {name : ℕ → BYTE}
    (h0 : inUseAs name (cluster twoFilesImage.stream.file 0) = false)
    (h1 : inUseAs name (cluster twoFilesImage.stream.file 1) = false) (c : ℕ) :
    ¬Matches twoFilesImage name c := by
  intro hc
  obtain ⟨hlt, hin⟩ := matches_iff.mp hc
  have htwo : c < 2 := hlt
  obtain rfl | rfl : c = 0 ∨ c = 1 := by omega
  · exact absurd (h0.symm.trans hin) Bool.false_ne_true
  · exact absurd (h1.symm.trans hin) Bool.false_ne_true

/-- Beside files `a` and `b`, no file `c` is there to be unlinked. -/
theorem fuse_unlink_iff_others :
    Unlinks twoFilesImage (ofList [47, 99]) (kssfsUnlink twoFilesImage (ofList [47, 99])) := by
  have hpath : SlashPath (ofList [47, 99]) := by
    refine ⟨rfl, by decide, fun k hk => ?_⟩
    cases k with
    | zero => decide
    | succ k => exact absurd rfl (hk 1 (by omega))
  refine (fuse_unlink_iff twoFilesImage_complete hpath).mpr ⟨?_, ?_⟩
  · exact twoFilesImage_not_matches (by decide +kernel) (by decide +kernel)
  · exact twoFilesImage_not_matches (by decide +kernel) (by decide +kernel)

/-- A file `a` is there, but is not found, and stays. -/
theorem fuse_unlink_misses :
    (kssfsUnlink emptyFileImage (ofList [47, 97])).1 = -2 ∧
    cluster (kssfsUnlink emptyFileImage (ofList [47, 97])).2.stream.file 0 0 = 1 ∧
    ¬Unlinks emptyFileImage (ofList [47, 97]) (kssfsUnlink emptyFileImage (ofList [47, 97])) := by
  have hres : (kssfsUnlink emptyFileImage (ofList [47, 97])).1 = -2 := by decide +kernel
  refine ⟨hres, by decide +kernel, fun h => ?_⟩
  have hzero := (h.present 0 emptyFileImage_matches).1
  rw [hres] at hzero
  exact absurd hzero (by decide)

/-! ## Renaming a file -/

/-- Looking at a mounted image: reads, attribute queries, and opening files that are there. -/
def StoreOp.Looks (s : Mount) : StoreOp → Prop
  | .read _ _ _ _ => True
  | .getattr _ _ => True
  | .openFile path _ => Present s (tail path)
  | _ => False

/-- In the image `t`, cluster `c` of the image `s` has the name of `path'` instead of that of
`path`: the new name is found there and nowhere else, opening it gives the handle, the old one is
not found, the file is what it was, and so are all other clusters. -/
structure RenamedTo (s t : Mount) (path path' : ℕ → BYTE) (c : ℕ) : Prop where
  found : ∀ d, Matches t (tail path') d ↔ d = c
  opens : ∀ fh, (kssfsOpen t path' fh).1 = 0 ∧ (kssfsOpen t path' fh).2.1.toNat = c
  gone : ∀ d, ¬Matches t (tail path) d
  type_eq : kssfsType (cluster t.stream.file c) = kssfsType (cluster s.stream.file c)
  len_eq : kssfsLen (cluster t.stream.file c) = kssfsLen (cluster s.stream.file c)
  data_eq : ∀ k < 7680, cluster t.stream.file c (512 + k) = cluster s.stream.file c (512 + k)
  others : ∀ d < s.clusterN.toNat, d ≠ c →
    ∀ a < 8192, cluster t.stream.file d a = cluster s.stream.file d a

/-- What renaming, with the result `r`, has to do to the image `s`: if the old name is there and the
new one is not, the file has the new name, as far as any later look at the image can tell; if the
old name is not there, the call fails and leaves the image alone. -/
structure Renames (s : Mount) (path path' : ℕ → BYTE) (r : ℤ × Mount) : Prop where
  present : ∀ c, Matches s (tail path) c → (∀ d, ¬Matches s (tail path') d) → r.1 = 0 ∧
    ∀ ops, Run.Along Mount.storeStep StoreOp.Looks r.2 ops →
      RenamedTo s (Run.run Mount.storeStep r.2 ops) path path' c
  absent : (∀ c, ¬Matches s (tail path) c) →
    r.1 = -ENOENT.toNat ∧ r.2.stream.file = s.stream.file

/-- **When renaming takes effect.** For every complete image and all paths: renaming does what it is
for iff there is nothing to rename, or the new name is taken.

**Proof sketch.** The image is the same after the call, so the old name is still found. -/
theorem fuse_rename_iff {s : Mount} (h : Complete s) (path path' : ℕ → BYTE) :
    Renames s path path' (kssfsRename s path path') ↔
      (∀ c, ¬Matches s (tail path) c) ∨ ∃ c, Matches s (tail path') c := by
  obtain ⟨hsame, hcases⟩ := kssfsRename_cases h path path'
  constructor
  · intro hr
    by_contra hno
    push Not at hno
    obtain ⟨⟨c, hc⟩, hfree⟩ := hno
    have heffect := (hr.present c hc hfree).2 [] trivial
    exact heffect.gone c (hsame.matches_iff.mpr hc)
  · intro hcond
    constructor
    case present =>
      intro c hc hfree
      rcases hcond with hnone | ⟨d, hd⟩
      · exact absurd hc (hnone c)
      · exact absurd hd (hfree d)
    case absent =>
      intro hnone
      rcases hcases with ⟨-, hres⟩ | ⟨⟨c, hc⟩, -⟩
      · exact ⟨hres, hsame.file_eq⟩
      · exact absurd hc (hnone c)

/-- Beside files `a` and `b`, no file `c` is there to be renamed, and for `a` the name `b` is
taken. -/
theorem fuse_rename_iff_others :
    Renames twoFilesImage (ofList [47, 99]) (ofList [47, 100])
      (kssfsRename twoFilesImage (ofList [47, 99]) (ofList [47, 100])) ∧
    Renames twoFilesImage (ofList [47, 97]) (ofList [47, 98])
      (kssfsRename twoFilesImage (ofList [47, 97]) (ofList [47, 98])) := by
  constructor
  · refine (fuse_rename_iff twoFilesImage_complete _ _).mpr (.inl ?_)
    exact twoFilesImage_not_matches (by decide +kernel) (by decide +kernel)
  · refine (fuse_rename_iff twoFilesImage_complete _ _).mpr (.inr ⟨1, matches_iff.mpr ⟨?_, ?_⟩⟩)
    · decide
    · decide +kernel

/-- The file `a` is renamed to `b`, with success; after that, `a` is still there, and opening `b`
finds nothing and no free cluster for a new file. -/
theorem fuse_rename_lost :
    (kssfsRename emptyFileImage (ofList [47, 97]) (ofList [47, 98])).1 = 0 ∧
    (kssfsOpen (kssfsRename emptyFileImage (ofList [47, 97]) (ofList [47, 98])).2
      (ofList [47, 98]) 0).1 = -28 ∧
    ¬Renames emptyFileImage (ofList [47, 97]) (ofList [47, 98])
      (kssfsRename emptyFileImage (ofList [47, 97]) (ofList [47, 98])) := by
  have hopen : (kssfsOpen (kssfsRename emptyFileImage (ofList [47, 97]) (ofList [47, 98])).2
      (ofList [47, 98]) 0).1 = -28 := by decide +kernel
  refine ⟨by decide +kernel, hopen, fun h => ?_⟩
  have hfree : ∀ d, ¬Matches emptyFileImage (tail (ofList [47, 98])) d := by
    intro d hd
    obtain ⟨hlt, hin⟩ := matches_iff.mp hd
    obtain rfl : d = 0 := Nat.lt_one_iff.mp hlt
    exact absurd hin (by decide +kernel)
  have heffect := (h.present 0 emptyFileImage_matches hfree).2 [] trivial
  have hzero := (heffect.opens 0).1
  rw [Run.run_nil, hopen] at hzero
  exact absurd hzero (by decide)

end Korolev.Fuse
