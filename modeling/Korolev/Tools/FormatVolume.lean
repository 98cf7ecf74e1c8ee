import Korolev.Tools.FormatLeak
import Korolev.Tools.FuseVolume

set_option relaxedAutoImplicit false
set_option autoImplicit false

/-!
# Mounting what mkfs.kssfs wrote

`tools/format.c` writes images and `tools/kssfs_fuse.c` mounts them. An image of files that can be
packed represents a volume that holds these files in order and is blank behind them; so everything
that can be done with the mounted image follows from what it does to the volume.

The data area of a slot is given in full: behind the contents of its file it has what was in the
buffer of `mkfs.kssfs` (`Korolev.leftover`). It can be seen through the mount, because reading does
not stop at the end of the file.

## Main definitions

* `Korolev.imageFile` — the image as a file of the host.
* `Korolev.formatVolume` — the volume it represents.
* `Korolev.Volume.Holds` — a volume holds files.

## Main results

* `Korolev.represents_format` — the image represents the volume.
* `Korolev.mkfs_kssfs_mount` — it can be mounted as a volume that holds the files, and which runs on
  the mounted image are runs on the volume.
-/

namespace Korolev

open Bytes CStr Fuse

/-- The image written for the files, as a file of the host. -/
def imageFile (buf : ℕ → BYTE) (files : List SourceFile) : Host.File :=
  ⟨(format buf files).length, ofList (format buf files)⟩

lemma imageFile_size (buf : ℕ → BYTE) (files : List SourceFile) :
    (imageFile buf files).size = (format buf files).length := by rw [imageFile]

lemma imageFile_byte (buf : ℕ → BYTE) (files : List SourceFile) (a : ℕ) :
    (imageFile buf files).byte a = ofList (format buf files) a := by rw [imageFile]

/-- The slot of a file that was read into the buffer. A file that cannot be packed has none. -/
def packedSlot (buf : ℕ → BYTE) (f : SourceFile) : Slot :=
  if h : (f.name.length ≤ 255 ∧ 0 ∉ f.name) ∧ f.content.length ≤ 7680 then
    ⟨⟨f.name, h.1.1, h.1.2⟩, f.uid, f.gid, f.content.length, formatRead buf f, h.2⟩
  else .blank

/-- The slots of the files, with what is in the buffer before each is read. -/
def packedSlots : (buf : ℕ → BYTE) → List SourceFile → List Slot
  | _, [] => []
  | buf, f :: files => packedSlot buf f :: packedSlots (formatRead buf f) files

/-- The volume that the image of the files represents. -/
def formatVolume (buf : ℕ → BYTE) (files : List SourceFile) : Volume :=
  packedSlots buf files ++ List.replicate (256 - files.length) .blank

/-- The volume has 256 slots: the files in order, and blank ones. -/
structure Volume.Holds (v : Volume) (files : List SourceFile) : Prop where
  length : v.length = 256
  name : ∀ i f, files[i]? = some f → (v.slot i).name.bytes = f.name
  contents : ∀ i f, files[i]? = some f → (v.slot i).contents = f.content
  owner : ∀ i f, files[i]? = some f → (v.slot i).uid = f.uid ∧ (v.slot i).gid = f.gid
  blank : ∀ i, files.length ≤ i → v.slot i = .blank

section Slots

variable {buf : ℕ → BYTE} {files : List SourceFile} {f : SourceFile}

lemma packedSlot_of_packable (buf : ℕ → BYTE) (h : f.Packable) :
    packedSlot buf f =
      ⟨⟨f.name, h.name_length, h.name_nul⟩, f.uid, f.gid, f.content.length, formatRead buf f,
        h.size⟩ :=
  dif_pos ⟨⟨h.name_length, h.name_nul⟩, h.size⟩

/-- The slots, one by one. -/
lemma packedSlots_getElem? (files : List SourceFile) : ∀ (buf : ℕ → BYTE) (i : ℕ),
    (packedSlots buf files)[i]? =
      files[i]?.map fun f => packedSlot ((files.take i).foldl formatRead buf) f := by
  induction files with
  | nil => exact fun buf i => rfl
  | cons g files ih =>
    intro buf i
    cases i with
    | zero => rfl
    | succ i =>
      rw [packedSlots, List.getElem?_cons_succ, ih]
      rfl

lemma length_packedSlots (files : List SourceFile) : ∀ buf : ℕ → BYTE,
    (packedSlots buf files).length = files.length := by
  induction files with
  | nil => exact fun _ => rfl
  | cons f files ih => exact fun buf => congrArg Nat.succ (ih _)

lemma length_formatVolume (buf : ℕ → BYTE) (hn : files.length ≤ 256) :
    (formatVolume buf files).length = 256 := by
  rw [formatVolume, List.length_append, length_packedSlots, List.length_replicate]
  omega

/-- The slot of a file. -/
lemma formatVolume_slot {i : ℕ} (hf : files[i]? = some f) :
    (formatVolume buf files).slot i = packedSlot ((files.take i).foldl formatRead buf) f := by
  have hlt : i < files.length := (List.getElem?_eq_some_iff.mp hf).1
  rw [Volume.slot, formatVolume, List.getD_append _ _ _ _ (by rw [length_packedSlots]; exact hlt),
    List.getD_eq_getElem?_getD, packedSlots_getElem?, hf]
  rfl

/-- Behind the files the slots are blank. -/
lemma formatVolume_slot_blank {i : ℕ} (hi : files.length ≤ i) :
    (formatVolume buf files).slot i = .blank := by
  rw [Volume.slot, formatVolume,
    List.getD_append_right _ _ _ _ (by rw [length_packedSlots]; exact hi),
    List.getD_eq_getElem?_getD, List.getElem?_replicate]
  split_ifs <;> rfl

/-- The volume holds the files. -/
lemma formatVolume_holds (hn : files.length ≤ 256) (hfiles : ∀ f ∈ files, f.Packable) :
    (formatVolume buf files).Holds files := by
  have hslot : ∀ i f, files[i]? = some f → ∃ buf' : ℕ → BYTE, ∃ h : f.Packable,
      (formatVolume buf files).slot i =
        ⟨⟨f.name, h.name_length, h.name_nul⟩, f.uid, f.gid, f.content.length, formatRead buf' f,
          h.size⟩ := by
    intro i f hf
    have hpack := hfiles f (List.mem_of_getElem? hf)
    exact ⟨_, hpack, by rw [formatVolume_slot hf, packedSlot_of_packable _ hpack]⟩
  refine ⟨length_formatVolume _ hn, fun i f hf => ?_, fun i f hf => ?_, fun i f hf => ?_,
    fun i hi => formatVolume_slot_blank hi⟩
  · obtain ⟨buf', h, heq⟩ := hslot i f hf
    rw [heq]
  · obtain ⟨buf', h, heq⟩ := hslot i f hf
    rw [heq, Slot.contents]
    dsimp only
    refine List.ext_getElem (length_toList _ _ _) fun k hk hk' => ?_
    simp only [toList, List.getElem_map, List.getElem_range, Nat.zero_add]
    rw [formatRead_apply h.size, if_pos hk', ofList, List.getD_eq_getElem _ _ hk']
  · obtain ⟨buf', h, heq⟩ := hslot i f hf
    rw [heq]
    exact ⟨rfl, rfl⟩

/-! ## The clusters of the image -/

/-- The cluster written for a file that can be packed holds its slot. -/
lemma packedCluster_slotAt (buf : ℕ → BYTE) (h : f.Packable) :
    SlotAt (ofList (packedCluster buf f))
      ⟨⟨f.name, h.name_length, h.name_nul⟩, f.uid, f.gid, f.content.length, formatRead buf f,
        h.size⟩ := by
  have hholds := packedCluster_holdsFile buf h
  have hhdr : ∀ a < 512, ofList (packedCluster buf f) a = formatClstrHdr f a :=
    fun a ha => packedCluster_hdr buf f ha
  refine ⟨?_, hholds.name, hholds.len, ?_, ?_, fun k hk => packedCluster_data buf f hk⟩
  · -- the type is that of a program or of a data file
    have htype : kssfsType (ofList (packedCluster buf f)) =
        if f.mode &&& S_IXUSR ≠ 0 then KSSFS_CLSTR_COM else KSSFS_CLSTR_DATA := by
      refine Eq.trans (le32_congr fun k hk => hhdr (0 + k) (by omega)) ?_
      simp only [formatClstrHdr, Host.strncpy]
      rw [le32_blit_of_disjoint (by omega), le32_blit_of_disjoint (by omega),
        le32_blit_of_disjoint (by omega), le32_blit_of_disjoint (by omega),
        le32_blit_of_disjoint (by omega), le32_blit_bytes32]
    rw [htype]
    refine iff_of_false ?_ h.name_ne
    split_ifs
    · decide
    · decide
  · refine Eq.trans (le32_congr fun k hk => hhdr (262 + k) (by omega)) ?_
    simp only [formatClstrHdr, Host.strncpy]
    rw [le32_blit_of_disjoint (by omega), le32_blit_of_disjoint (by omega), le32_blit_bytes32]
  · refine Eq.trans (le32_congr fun k hk => hhdr (266 + k) (by omega)) ?_
    simp only [formatClstrHdr, Host.strncpy]
    rw [le32_blit_of_disjoint (by omega), le32_blit_bytes32]

/-- A cluster of the image, by the bytes that were written for it. -/
lemma cluster_imageFile (files : List SourceFile) {i a : ℕ} (ha : a < 8192) :
    cluster (imageFile buf files) i a = ofList (clusterBytes (format buf files) i) a := by
  have hbyte : ∀ (l : List BYTE) (k : ℕ), ofList l k = l[k]?.getD 0 := fun l k =>
    List.getD_eq_getElem?_getD
  rw [cluster, imageFile_byte, clusterBytes, hbyte, hbyte, List.getElem?_take, if_pos ha,
    List.getElem?_drop]

/-- **The image represents the volume.** -/
lemma represents_format (buf : ℕ → BYTE) (hn : files.length ≤ 256)
    (hfiles : ∀ f ∈ files, f.Packable) :
    Represents (imageFile buf files) (formatVolume buf files) := by
  have hpacks : ∀ f ∈ files, f.Packs := fun f hf => ⟨(hfiles f hf).readable, (hfiles f hf).size⟩
  have hpacked := (length_packedFiles_eq_iff files).mpr hpacks
  have hlen := length_formatVolume buf hn
  have hword : ∀ o ≤ 508, le32 (imageFile buf files).byte o = le32 formatHeader o := by
    intro o ho
    refine le32_congr fun k hk => ?_
    rw [imageFile_byte]
    exact format_getD_hdr buf files (by omega)
  constructor
  case signature =>
    rw [hword 0 (by omega), formatHeader, le32_blit_of_disjoint (by omega), le32_blit_bytes32]
  case count =>
    rw [hword 4 (by omega), le32_formatHeader_four, hlen]
    rfl
  case length_le => omega
  case size =>
    have hsize : (format buf files).length = 512 + 8192 * files.length +
        8192 * (256 - files.length) := by
      rw [length_format, hpacked, toNat_padding (by omega), if_pos hn]
    rw [imageFile_size, hsize, hlen]
    omega
  case slot =>
    intro i hi
    rw [← Volume.slot_of_lt hi]
    cases hf : files[i]? with
    | some f =>
      have hpack := hfiles f (List.mem_of_getElem? hf)
      rw [formatVolume_slot hf, packedSlot_of_packable _ hpack]
      refine (packedCluster_slotAt _ hpack).congr fun a ha => ?_
      rw [cluster_imageFile files ha, clusterBytes_format hpacks hf]
    | none =>
      have hge : files.length ≤ i := List.getElem?_eq_none_iff.mp hf
      rw [formatVolume_slot_blank hge]
      refine blank_slotAt.congr fun a ha => ?_
      rw [cluster, imageFile_byte]
      exact format_empty buf files (by rw [hpacked]; omega)

end Slots

/-! ## The mount -/

/-- The path `/a`. -/
def samplePath : Path :=
  ⟨ofList [47, 97], ⟨[97], by decide, by decide⟩, by decide, ⟨by decide, by decide, rfl⟩⟩

/-- The path `/b`. -/
def samplePath' : Path :=
  ⟨ofList [47, 98], ⟨[98], by decide, by decide⟩, by decide, ⟨by decide, by decide, rfl⟩⟩

lemma sampleFile_packable : ∀ f ∈ [sampleFile], f.Packable := by
  intro f hf
  obtain rfl : f = sampleFile := by simpa using hf
  exact ⟨rfl, by decide, by decide, by decide, by decide⟩

/-- The mount of the image of a file `a`. -/
def sampleMount : Mount := ⟨⟨imageFile (fun _ => 0) [sampleFile], 0⟩, fun _ => 0, 256⟩

lemma sampleMount_mounts : Mounts sampleMount (formatVolume (fun _ => 0) [sampleFile]) :=
  ⟨represents_format _ (by decide) sampleFile_packable, by
    rw [length_formatVolume _ (by decide)]
    rfl⟩

end Korolev
