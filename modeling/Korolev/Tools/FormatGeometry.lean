import Korolev.Tools.Format

set_option relaxedAutoImplicit false
set_option autoImplicit false

/-!
# The geometry of mkfs.kssfs images

The header of an image announces 256 clusters. `tools/format.c` writes a cluster for every file
it can open that is not too large, and then as many empty clusters as are missing to 256 files on
the command line. Files that it skips are counted as if they had been written, and more than 256
files make the difference wrap around. So the image has the announced clusters exactly when there
are at most 256 files and none of them is skipped.

The number of files is bounded by the type of `argc`.

## Main definitions

* `Korolev.SourceFile.Packs` — a cluster is written for the file.
* `Korolev.KssfsGeometry` — the image has the clusters it announces, and the ones without a file
  are empty.

## Main results

* `Korolev.length_formatFiles` — the loop over the files writes one cluster for each that packs.
* `Korolev.mkfs_kssfs_geometry` — the exact condition.
-/

namespace Korolev

open Bytes

/-- A cluster is written for the file: it can be opened and is not too large. -/
def SourceFile.Packs (f : SourceFile) : Prop := f.readable = true ∧ f.content.length ≤ 7680

instance (f : SourceFile) : Decidable f.Packs := inferInstanceAs (Decidable (_ ∧ _))

/-- The files that are packed. -/
def packedFiles (files : List SourceFile) : List SourceFile := files.filter fun f => f.Packs

/-- The image has the 256 clusters its header announces, and those behind the packed files are
empty. -/
structure KssfsGeometry (image : List BYTE) (files : List SourceFile) : Prop where
  announced : le32 (ofList image) 4 = 256
  length : image.length = 512 + 256 * 8192
  inside : ∀ i < 256, 512 + 8192 * (i + 1) ≤ image.length
  empty : ∀ i < 256, (packedFiles files).length ≤ i →
    ∀ a < 8192, ofList image (512 + 8192 * i + a) = 0

/-- One iteration writes a cluster if the file packs, and nothing if it does not. -/
lemma length_formatFile (buf : ℕ → BYTE) (f : SourceFile) :
    (formatFile buf f).1.length = if f.Packs then 8192 else 0 := by
  rw [formatFile]
  by_cases hread : f.readable = true
  · by_cases hsize : f.content.length ≤ 7680
    · have hpacks : f.Packs := ⟨hread, hsize⟩
      simp [hread, hpacks, not_lt.mpr hsize]
    · have hskip : ¬f.Packs := fun h => hsize h.2
      simp [hread, hskip, not_le.mp hsize]
  · have hskip : ¬f.Packs := fun h => hread h.1
    simp [hread, hskip]

/-- The loop over the files writes one cluster for each that packs.

**Proof sketch.** Induction on the list of files, for every content of the buffer. -/
lemma length_formatFiles (files : List SourceFile) :
    ∀ buf : ℕ → BYTE, (formatFiles buf files).length = 8192 * (packedFiles files).length := by
  induction files with
  | nil => exact fun _ => rfl
  | cons f files ih =>
    intro buf
    rw [formatFiles, List.length_append, length_formatFile, ih, packedFiles, packedFiles,
      List.filter_cons]
    by_cases hf : f.Packs
    · simp only [hf, decide_true, if_true, List.length_cons]
      omega
    · simp [hf]

lemma length_format (buf : ℕ → BYTE) (files : List SourceFile) :
    (format buf files).length = 512 + 8192 * (packedFiles files).length +
      8192 * (256 - UInt32.ofNat files.length).toNat := by
  simp only [format, List.length_append, length_toList, length_formatFiles]
  rw [length_flatten_of_forall fun c hc => by
    rw [List.eq_of_mem_replicate hc, List.length_replicate], List.length_replicate]

lemma length_packedFiles_le (files : List SourceFile) :
    (packedFiles files).length ≤ files.length := List.length_filter_le ..

/-- All files are packed iff as many as there are. -/
lemma length_packedFiles_eq_iff (files : List SourceFile) :
    (packedFiles files).length = files.length ↔ ∀ f ∈ files, f.Packs := by
  rw [packedFiles, List.length_filter_eq_length_iff]
  simp

/-- The number of empty clusters, computed in 32 bits. -/
lemma toNat_padding {n : ℕ} (hn : n < 2 ^ 31) :
    (256 - UInt32.ofNat n).toNat = if n ≤ 256 then 256 - n else 2 ^ 32 + 256 - n := by
  have hval : (UInt32.ofNat n).toNat = n := toNat_ofNat_of_lt (by omega)
  have hclusters : (256 : LONG).toNat = 256 := rfl
  rw [UInt32.toNat_sub, hval, hclusters]
  split_ifs <;> omega

/-- Behind the packed files the image is zero. -/
lemma format_empty (buf : ℕ → BYTE) (files : List SourceFile) {b : ℕ}
    (hb : 512 + 8192 * (packedFiles files).length ≤ b) : ofList (format buf files) b = 0 := by
  have hlen : (toList formatHeader 0 512 ++ formatFiles buf files).length =
      512 + 8192 * (packedFiles files).length := by
    rw [List.length_append, length_toList, length_formatFiles]
  rw [ofList, format, List.getD_append_right _ _ _ _ (by rw [hlen]; exact hb), List.getD]
  cases hget : (List.replicate (256 - UInt32.ofNat files.length).toNat
      (List.replicate 8192 (0 : BYTE))).flatten[b - (toList formatHeader 0 512 ++
        formatFiles buf files).length]? with
  | none => rfl
  | some x =>
    obtain ⟨c, hc, hx⟩ := List.mem_flatten.mp (List.mem_of_getElem? hget)
    rw [List.eq_of_mem_replicate hc] at hx
    exact List.eq_of_mem_replicate hx

/-- **The geometry of the image.** It has the 256 clusters its header announces, empty behind
the packed files, iff at most 256 files are given and none of them is skipped.

**Proof sketch.** The image has one cluster for each file that is packed, and as many empty ones
as the number of all files leaves to 256, in 32 bits. -/
theorem mkfs_kssfs_geometry (buf : ℕ → BYTE) (files : List SourceFile)
    (hargs : files.length < 2 ^ 31) :
    KssfsGeometry (format buf files) files ↔
      files.length ≤ 256 ∧ ∀ f ∈ files, f.readable = true ∧ f.content.length ≤ 7680 := by
  have hlen := length_format buf files
  have hle := length_packedFiles_le files
  rw [toNat_padding hargs] at hlen
  constructor
  · intro h
    have hlength := h.length
    rw [hlen] at hlength
    split_ifs at hlength with hn
    · exact ⟨hn, (length_packedFiles_eq_iff files).mp (by omega)⟩
    · omega
  · rintro ⟨hn, hall⟩
    have hpacked := (length_packedFiles_eq_iff files).mpr hall
    have htotal : (format buf files).length = 512 + 256 * 8192 := by
      rw [hlen, if_pos hn, hpacked]
      omega
    refine ⟨?_, htotal, fun i hi => by omega, fun i _ hi a _ => format_empty buf files (by omega)⟩
    have hword : le32 (ofList (format buf files)) 4 = le32 formatHeader 4 :=
      le32_congr fun k hk => format_getD_hdr buf files (by omega)
    rw [hword, le32_formatHeader_four]

/-- Two small files make an image of the announced size. -/
theorem mkfs_kssfs_geometry_two_files :
    KssfsGeometry (format (fun _ => 0) [sampleFile, sampleFile]) [sampleFile, sampleFile] := by
  refine (mkfs_kssfs_geometry _ _ (by decide)).mpr ⟨by decide, fun f hf => ?_⟩
  obtain rfl : f = sampleFile := by simpa using hf
  exact ⟨rfl, by decide⟩

/-- A file that cannot be opened leaves the image one cluster short. -/
theorem mkfs_kssfs_unreadable :
    ¬KssfsGeometry (format (fun _ => 0) [⟨[97], false, [], 0, 0, 0⟩])
      [⟨[97], false, [], 0, 0, 0⟩] := by
  intro h
  have hlength := h.length
  rw [length_format] at hlength
  exact absurd hlength (by decide)

end Korolev
