import Korolev.Fs.Kssfs
import Korolev.Library.Run
import Korolev.Tools.Host
import Mathlib.Data.List.Nodup

set_option relaxedAutoImplicit false
set_option autoImplicit false

/-!
# mkfs.kssfs

`tools/format.c` writes a KSSFS image: the file system header, one cluster for each file on its
command line, and empty clusters up to 256. The kernel (`fs/kssfs.c`) looks the files up again.
The two programs share nothing but the header file; this file puts them together.

The image is written front to back, and is a list of bytes. The buffer a file is read into is a
local of the loop body that is only partly cleared: what an earlier file left behind its end
stays there and is written with the next one. It is passed from one iteration to the next, and
starts with whatever is on the stack.

## Main definitions

* `Korolev.SourceFile` — a file named on the command line.
* `Korolev.formatFile`, `Korolev.formatFiles`, `Korolev.format` — the image.

## Main results

* `Korolev.format_round_trip` — the kernel finds every packed file, with its contents, and
  nothing else.
-/

namespace Korolev

open Bytes CStr

/-! ## The image -/

/-- A path on the command line, without its terminator, and what is there: whether it can be
opened, its contents, and what `stat` reports besides the size. -/
structure SourceFile where
  name : List BYTE
  readable : Bool
  content : List BYTE
  mode : LONG
  uid : LONG
  gid : LONG

/-- `S_IXUSR` -/
def S_IXUSR : LONG := 0x40

/-- `hdr`, as it is written. -/
def formatHeader : ℕ → BYTE :=
  blit (blit (fun _ => 0) 0 4 (bytes32 KSSFS_SIGNATURE)) 4 4 (bytes32 256)

/-- `chdr` for a file, as it is written. -/
def formatClstrHdr (f : SourceFile) : ℕ → BYTE :=
  let chdr := fun _ => 0
  let type := if f.mode &&& S_IXUSR ≠ 0 then KSSFS_CLSTR_COM else KSSFS_CLSTR_DATA
  let chdr := blit chdr 0 4 (bytes32 type)
  let chdr := blit chdr 4 2 (bytes16 (UInt16.ofNat f.content.length))
  let chdr := Host.strncpy chdr 6 (ofList f.name) 256
  let chdr := blit chdr 262 4 (bytes32 f.uid)
  let chdr := blit chdr 266 4 (bytes32 f.gid)
  blit chdr 270 4 (bytes32 0)

/-- `buf` after the file was read into it: only the first 512 bytes are cleared before. -/
def formatRead (buf : ℕ → BYTE) (f : SourceFile) : ℕ → BYTE :=
  let buf := blit buf 0 512 fun _ => 0
  blit buf 0 (min f.content.length 7680) (ofList f.content)

/-- One iteration of the loop over the files: what is written, and `buf` afterwards. A file that
cannot be opened or is too large is skipped. -/
def formatFile (buf : ℕ → BYTE) (f : SourceFile) : List BYTE × (ℕ → BYTE) :=
  if !f.readable then ([], buf)
  else
    let buf := formatRead buf f
    if 7680 < f.content.length then ([], buf)
    else (toList (formatClstrHdr f) 0 512 ++ toList buf 0 7680, buf)

/-- The loop over the files. -/
def formatFiles : (buf : ℕ → BYTE) → List SourceFile → List BYTE
  | _, [] => []
  | buf, f :: files => (formatFile buf f).1 ++ formatFiles (formatFile buf f).2 files

/-- `main`: the image written for the files. The number of empty clusters is computed from the
number of arguments in 32 bits. -/
def format (buf : ℕ → BYTE) (files : List SourceFile) : List BYTE :=
  let file_n : LONG := UInt32.ofNat files.length
  toList formatHeader 0 512 ++ formatFiles buf files ++
    (List.replicate (256 - file_n).toNat (List.replicate 8192 0)).flatten

/-! ## Clusters of the image -/

/-- A file that can be packed: it can be opened, it fits in a cluster, and its name is a
non-empty string of at most 255 bytes. -/
structure SourceFile.Packable (f : SourceFile) : Prop where
  readable : f.readable = true
  size : f.content.length ≤ 7680
  name_ne : f.name ≠ []
  name_length : f.name.length ≤ 255
  name_nul : 0 ∉ f.name

/-- A cluster region holds a file: its header has the name, zero-filled, and the size, and the
data area starts with the contents. -/
structure HoldsFile (m : ℕ → BYTE) (f : SourceFile) : Prop where
  name : ∀ k < 256, kssfsFilename m k = ofList f.name k
  len : (kssfsLen m).toNat = f.content.length
  data : ∀ k < f.content.length, m (512 + k) = ofList f.content k

/-- What a region holds depends on the bytes of the cluster only. -/
lemma HoldsFile.congr {m m' : ℕ → BYTE} {f : SourceFile} (h : HoldsFile m f)
    (hsize : f.content.length ≤ 7680) (heq : ∀ a < 8192, m' a = m a) : HoldsFile m' f := by
  refine ⟨fun k hk => ?_, ?_, fun k hk => ?_⟩
  · rw [← h.name k hk]
    exact heq _ (by omega)
  · rw [← h.len, kssfsLen, le16_congr fun k hk => heq (4 + k) (by omega)]
    rfl
  · rw [heq _ (by omega), h.data k hk]

/-- A name without NUL bytes is its own zero-filled copy. -/
lemma cut_ofList {l : List BYTE} (h : 0 ∉ l) : Host.cut (ofList l) = ofList l := by
  funext k
  by_cases hk : ∀ j < k, ofList l j ≠ 0
  · exact if_pos hk
  · have hlen : l.length ≤ k := by
      by_contra hlt
      refine hk fun j hj h0 => h ?_
      rw [ofList, List.getD_eq_getElem _ _ (by omega)] at h0
      rw [← h0]
      exact List.getElem_mem _
    rw [Host.cut, if_neg hk, ofList, List.getD_eq_default _ _ hlen]

/-- The header and the buffer written for a file that can be packed. -/
def packedCluster (buf : ℕ → BYTE) (f : SourceFile) : List BYTE :=
  toList (formatClstrHdr f) 0 512 ++ toList (formatRead buf f) 0 7680

lemma length_packedCluster (buf : ℕ → BYTE) (f : SourceFile) :
    (packedCluster buf f).length = 8192 := by
  simp [packedCluster]

lemma packedCluster_hdr (buf : ℕ → BYTE) (f : SourceFile) {a : ℕ} (ha : a < 512) :
    ofList (packedCluster buf f) a = formatClstrHdr f a := by
  rw [ofList, packedCluster, List.getD_append _ _ _ _ (by simpa using ha), getD_toList ha,
    Nat.zero_add]

lemma packedCluster_data (buf : ℕ → BYTE) (f : SourceFile) {k : ℕ} (hk : k < 7680) :
    ofList (packedCluster buf f) (512 + k) = formatRead buf f k := by
  rw [ofList, packedCluster, List.getD_append_right _ _ _ _ (by simp), length_toList,
    Nat.add_sub_cancel_left, getD_toList hk, Nat.zero_add]

/-- The cluster written for a file holds it, whatever was in the buffer before. -/
lemma packedCluster_holdsFile (buf : ℕ → BYTE) {f : SourceFile} (h : f.Packable) :
    HoldsFile (ofList (packedCluster buf f)) f := by
  refine ⟨fun k hk => ?_, ?_, fun k hk => ?_⟩
  · rw [kssfsFilename, packedCluster_hdr _ _ (by omega)]
    simp only [formatClstrHdr, Host.strncpy]
    rw [blit_of_not_mem (by omega), blit_of_not_mem (by omega), blit_of_not_mem (by omega),
      blit_add hk, cut_ofList h.name_nul]
  · have hlen : kssfsLen (ofList (packedCluster buf f)) =
        le16 (bytes16 (UInt16.ofNat f.content.length)) 0 := by
      refine le16_congr fun k hk => ?_
      rw [packedCluster_hdr _ _ (by omega)]
      simp only [formatClstrHdr, Host.strncpy]
      rw [blit_of_not_mem (by omega), blit_of_not_mem (by omega), blit_of_not_mem (by omega),
        blit_of_not_mem (by omega), blit_add hk, Nat.zero_add]
    have hsize := h.size
    rw [hlen, le16_bytes16, UInt16.toNat_ofNat', Nat.mod_eq_of_lt (by omega)]
  · have hsize := h.size
    rw [packedCluster_data _ _ (by omega), formatRead, blit_of_mem (by omega) (by omega),
      Nat.sub_zero]

/-- A file that can be opened and is not too large is written. -/
lemma formatFile_of_le (buf : ℕ → BYTE) {f : SourceFile} (hread : f.readable = true)
    (hsize : f.content.length ≤ 7680) :
    formatFile buf f = (packedCluster buf f, formatRead buf f) := by
  simp only [formatFile, hread, Bool.not_true, Bool.false_eq_true, if_false,
    if_neg (not_lt.mpr hsize)]
  rfl

/-- **The clusters of the image.** For files that can be packed, the loop writes one cluster for
each, which holds it.

**Proof sketch.** Induction on the list of files, for every content of the buffer. -/
lemma formatFiles_clusters (files : List SourceFile) : ∀ buf : ℕ → BYTE,
    (∀ f ∈ files, f.Packable) →
    ∃ cs : List (List BYTE), formatFiles buf files = cs.flatten ∧ cs.length = files.length ∧
      (∀ c ∈ cs, c.length = 8192) ∧
      ∀ i f, files[i]? = some f → HoldsFile (ofList (cs.getD i [])) f := by
  induction files with
  | nil =>
    refine fun buf _ => ⟨[], rfl, rfl, fun c hc => ?_, fun i f hf => ?_⟩
    · exact absurd hc List.not_mem_nil
    · simp at hf
  | cons f files ih =>
    intro buf h
    have hf : f.Packable := h f (by simp)
    obtain ⟨cs, hcs, hlen, hsize, hholds⟩ := ih (formatRead buf f) fun g hg => h g (by simp [hg])
    refine ⟨packedCluster buf f :: cs, ?_, ?_, fun c hc => ?_, fun i g hg => ?_⟩
    · rw [formatFiles, formatFile_of_le buf hf.readable hf.size, hcs, List.flatten_cons]
    · rw [List.length_cons, List.length_cons, hlen]
    · rcases List.mem_cons.mp hc with heq | hc
      · rw [heq]
        exact length_packedCluster buf f
      · exact hsize c hc
    · cases i with
      | zero =>
        obtain rfl : f = g := by simpa using hg
        exact packedCluster_holdsFile buf hf
      | succ i => exact hholds i g (by simpa using hg)

/-! ## The image on a disk -/

/-- The image is on the disk from sector `lba` on. -/
def OnDisk (disk : ℕ → BYTE) (lba : LONG) (image : List BYTE) : Prop :=
  ∀ a < image.length, disk (512 * lba.toNat + a) = image.getD a 0

/-- Cluster `i` of the disk holds the `i`-th file, and is empty behind the last one. -/
structure PackedAt (disk : ℕ → BYTE) (lba : LONG) (files : List SourceFile) : Prop where
  holds : ∀ i < 256, ∀ f, files[i]? = some f → HoldsFile (clusterByte disk lba (UInt32.ofNat i)) f
  empty : ∀ i < 256, files[i]? = none →
    ∀ a < 8192, clusterByte disk lba (UInt32.ofNat i) a = 0

/-- The address of a byte of a cluster, if the sector numbers of the file system do not wrap. -/
lemma clusterByte_of_lt (disk : ℕ → BYTE) {lba : LONG} (hwrap : lba.toNat + 4097 ≤ 2 ^ 32)
    {i a : ℕ} (hi : i < 256) (ha : a < 8192) :
    clusterByte disk lba (UInt32.ofNat i) a = disk (512 * lba.toNat + (512 + (8192 * i + a))) := by
  have hsec : (clstrLba lba (UInt32.ofNat i) + UInt32.ofNat (a / 512)).toNat =
      lba.toNat + 1 + i * 16 + a / 512 := by
    simp only [clstrLba, UInt32.toNat_add, UInt32.toNat_mul, UInt32.toNat_ofNat,
      UInt32.toNat_ofNat']
    omega
  rw [clusterByte, sectorByte, hsec]
  congr 1
  omega

/-- **The image on a disk.** The kernel's clusters are the ones written by the tool: the header
sector is skipped, and the strides agree. -/
lemma format_packedAt {disk buf : ℕ → BYTE} {lba : LONG} {files : List SourceFile}
    (hn : files.length ≤ 256) (hfiles : ∀ f ∈ files, f.Packable)
    (hwrap : lba.toNat + 4097 ≤ 2 ^ 32) (hdisk : OnDisk disk lba (format buf files)) :
    PackedAt disk lba files := by
  obtain ⟨cs, hcs, hlen, hsize', hholds⟩ := formatFiles_clusters files buf hfiles
  have hpad : (256 - UInt32.ofNat files.length).toNat = 256 - files.length := by
    have hval : (UInt32.ofNat files.length).toNat = files.length := toNat_ofNat_of_lt (by omega)
    have hle : UInt32.ofNat files.length ≤ 256 := by
      rw [UInt32.le_iff_toNat_le, hval]
      exact hn
    rw [UInt32.toNat_sub_of_le _ _ hle, hval]
    rfl
  set all := cs ++ List.replicate (256 - files.length) (List.replicate 8192 (0 : BYTE)) with hall
  have himage : format buf files = toList formatHeader 0 512 ++ all.flatten := by
    simp only [format]
    rw [hpad, hcs, List.append_assoc, ← List.flatten_append]
  have hsize : ∀ c ∈ all, c.length = 8192 := by
    intro c hc
    rcases List.mem_append.mp hc with hc | hc
    · exact hsize' c hc
    · rw [List.eq_of_mem_replicate hc, List.length_replicate]
  have hbyte : ∀ i < 256, ∀ a < 8192,
      clusterByte disk lba (UInt32.ofNat i) a = (all.getD i []).getD a 0 := by
    intro i hi a ha
    have hin : 512 + (8192 * i + a) < (format buf files).length := by
      rw [himage, List.length_append, length_toList, length_flatten_of_forall hsize, hall,
        List.length_append, List.length_replicate]
      omega
    rw [clusterByte_of_lt disk hwrap hi ha, hdisk _ hin, himage,
      List.getD_append_right _ _ _ _ (by simp), length_toList, Nat.add_sub_cancel_left,
      getD_flatten hsize ha]
  refine ⟨fun i hi f hf => ?_, fun i hi hnone a ha => ?_⟩
  · have hlt : i < files.length := (List.getElem?_eq_some_iff.mp hf).1
    refine (hholds i f hf).congr (hfiles f (List.mem_of_getElem? hf)).size fun a ha => ?_
    rw [hbyte i hi a ha, hall, List.getD_append _ _ _ _ (by omega)]
    rfl
  · have hge : files.length ≤ i := List.getElem?_eq_none_iff.mp hnone
    rw [hbyte i hi a ha, hall, List.getD_append_right _ _ _ _ (by omega),
      List.getD_replicate _ (by omega), List.getD_replicate _ ha]

/-! ## Looking files up -/

/-- A call of `kssfs_read_file`: the memory at `dest`, the name, and the memory at the pointer to
the name. -/
structure ReadCall where
  dest : ℕ → BYTE
  name : List BYTE
  filename : ℕ → BYTE

/-- The name is a non-empty string of at most 255 bytes, and zero-filled to 260 bytes. -/
structure ReadCall.Valid (c : ReadCall) : Prop where
  name_ne : c.name ≠ []
  name_length : c.name.length ≤ 255
  name_nul : 0 ∉ c.name
  filled : ∀ k < 260, c.filename k = ofList c.name k

/-- Names without NUL bytes are determined by their first 256 bytes, zero-filled. -/
lemma ofList_injOn {l l' : List BYTE} (h : 0 ∉ l) (h' : 0 ∉ l') (hlen : l.length ≤ 255)
    (hlen' : l'.length ≤ 255) (heq : ∀ k < 256, ofList l k = ofList l' k) : l = l' := by
  have hnul : ∀ {l : List BYTE}, 0 ∉ l → ∀ {k : ℕ}, ofList l k = 0 ↔ l.length ≤ k := by
    intro l h k
    constructor
    · intro h0
      by_contra hlt
      rw [ofList, List.getD_eq_getElem _ _ (by omega)] at h0
      exact h (h0 ▸ List.getElem_mem _)
    · exact fun hk => List.getD_eq_default _ _ hk
  have hle : ∀ k < 256, (l.length ≤ k ↔ l'.length ≤ k) := fun k hk => by
    rw [← hnul h, ← hnul h', heq k hk]
  have hll : l.length = l'.length := by
    have h1 := hle l.length (by omega)
    have h2 := hle l'.length (by omega)
    omega
  refine List.ext_getElem hll fun k hk hk' => ?_
  have hbyte := heq k (by omega)
  rwa [ofList, ofList, List.getD_eq_getElem _ _ hk, List.getD_eq_getElem _ _ hk'] at hbyte

/-- A zero-filled name is padded. -/
lemma padded_ofList {l : List BYTE} (h : 0 ∉ l) (n : ℕ) : Padded n (ofList l) := by
  rw [← cut_ofList h]
  exact Host.padded_cut n _

/-- The kernel's comparison of a cluster with a name, for a cluster that holds a file: the
word-wise `strncmp` finds exactly equal names. -/
lemma HoldsFile.strncmp_iff {m : ℕ → BYTE} {f : SourceFile} (h : HoldsFile m f) (hf : f.Packable)
    {c : ReadCall} (hc : c.Valid) :
    strncmp (kssfsFilename m) c.filename 256 = 0 ↔ f.name = c.name := by
  have hname : Padded 256 (kssfsFilename m) := (padded_ofList hf.name_nul 256).congr h.name
  have hkey : Padded 256 c.filename :=
    (padded_ofList hc.name_nul 256).congr fun k hk => hc.filled k (by omega)
  rw [strncmp_eq_zero_iff_of_padded (by omega) hname hkey]
  constructor
  · intro heq
    refine ofList_injOn hf.name_nul hc.name_nul hf.name_length hc.name_length fun k hk => ?_
    rw [← h.name k hk, heq k hk, hc.filled k (by omega)]
  · intro heq k hk
    rw [h.name k hk, heq, hc.filled k (by omega)]

/-- An empty cluster is not taken for a file: the name looked for is not empty. -/
lemma strncmp_ne_zero_of_empty {m : ℕ → BYTE} (hm : ∀ a < 8192, m a = 0) {c : ReadCall}
    (hc : c.Valid) : strncmp (kssfsFilename m) c.filename 256 ≠ 0 := by
  intro h
  have hfirst := eqUpTo_of_strncmp_eq_zero (by omega) h 0 (by omega) fun j hj => by omega
  obtain ⟨b, l, hl⟩ := List.exists_cons_of_ne_nil hc.name_ne
  have hb : c.filename 0 = b := by
    rw [hc.filled 0 (by omega), hl]
    rfl
  have hzero : kssfsFilename m 0 = 0 := hm 6 (by omega)
  refine hc.name_nul ?_
  rw [hl, ← hzero, hfirst, hb]
  exact List.mem_cons_self

/-- A mounted KSSFS over the packed files. -/
structure Mounted (disk : ℕ → BYTE) (lba : LONG) (s : Kssfs) : Prop where
  inv : s.toClusterCache.Inv disk
  lba_eq : s.lba = lba
  clusterN_eq : s.clusterN = 256

/-- Reading a cluster in range keeps the file system mounted, and the buffer has the cluster. -/
lemma Mounted.readCluster {disk : ℕ → BYTE} {lba : LONG} {s : Kssfs} (h : Mounted disk lba s)
    (hlba : lba ≠ 0) {i : ℕ} (hi : i < 256) :
    Mounted disk lba (kssfsReadCluster s (UInt32.ofNat i)) ∧
    ∀ a < 8192, (kssfsReadCluster s (UInt32.ofNat i)).buf a =
      clusterByte disk lba (UInt32.ofNat i) a := by
  have hval : (UInt32.ofNat i).toNat = i := toNat_ofNat_of_lt (by omega)
  have hn : UInt32.ofNat i ≤ s.clusterN := by
    rw [h.clusterN_eq, UInt32.le_iff_toNat_le, hval]
    simp only [UInt32.toNat_ofNat]
    omega
  have hne : UInt32.ofNat i ≠ 0xffffffff := by
    intro heq
    have hnat := congrArg UInt32.toNat heq
    rw [hval] at hnat
    change i = 4294967295 at hnat
    omega
  refine ⟨⟨h.inv.readCluster _, ?_, ?_⟩, ?_⟩
  · rw [kssfsReadCluster_lba, h.lba_eq]
  · rw [kssfsReadCluster_clusterN, h.clusterN_eq]
  · rw [← h.lba_eq]
    exact h.inv.readCluster_buf (by rw [h.lba_eq]; exact hlba) hn hne

/-- A successful search: the file's bytes are copied, and nothing else. -/
lemma HoldsFile.memcpy_eq {m : ℕ → BYTE} {f : SourceFile} (h : HoldsFile m f) (dest : ℕ → BYTE) :
    memcpy dest 0 m 512 (kssfsLen m).toNat =
      blit dest 0 f.content.length (ofList f.content) := by
  rw [memcpy_eq_blit, h.len]
  exact blit_congr h.data

/-- The result of a call is right for the files `files`: a file with the name is found and
exactly its bytes are copied to `dest`; without one the result is `0`. -/
structure Finds (files : List SourceFile) (c : ReadCall) (r : ℤ × (ℕ → BYTE) × Kssfs) : Prop where
  found : ∀ f ∈ files, f.name = c.name →
    r.1 = 1 ∧ r.2.1 = blit c.dest 0 f.content.length (ofList f.content)
  missing : (∀ f ∈ files, f.name ≠ c.name) → r.1 = 0

section Lookup

variable {disk : ℕ → BYTE} {lba : LONG} {files : List SourceFile} (hlba : lba ≠ 0)
  (hn : files.length ≤ 256) (hfiles : ∀ f ∈ files, f.Packable)
  (hnodup : (files.map SourceFile.name).Nodup) (hpacked : PackedAt disk lba files)

include hlba hn hfiles hnodup hpacked

/-- **The search loop.** From cluster `i` on, a name is looked up among the files packed there.

**Proof sketch.** Induction on the number of clusters left. A cluster is read, through the cache
or not, and compared: if it holds a file with the name, that is the one, since names are
distinct; if not, the search goes on with the files behind it. -/
lemma kssfsReadScan_spec {c : ReadCall} (hc : c.Valid) (n : ℕ) : ∀ (i : ℕ) (s : Kssfs),
    i + n = 256 → Mounted disk lba s →
      Mounted disk lba (kssfsReadScan c.dest c.filename n (UInt32.ofNat i) s).2.2 ∧
      Finds (files.drop i) c (kssfsReadScan c.dest c.filename n (UInt32.ofNat i) s) := by
  induction n with
  | zero =>
    intro i s hin hs
    have hnil : files.drop i = [] := List.drop_eq_nil_of_le (by omega)
    refine ⟨hs, ⟨fun f hf _ => ?_, fun _ => rfl⟩⟩
    rw [hnil] at hf
    exact absurd hf List.not_mem_nil
  | succ n ih =>
    intro i s hin hs
    obtain ⟨hs', hbuf⟩ := hs.readCluster hlba (show i < 256 by omega)
    obtain ⟨hmounted, hfinds⟩ := ih (i + 1) _ (by omega) hs'
    rw [kssfsReadScan, ofNat_add_one]
    cases hfile : files[i]? with
    | none =>
      have hnil : files.drop i = [] := List.drop_eq_nil_of_le (List.getElem?_eq_none_iff.mp hfile)
      have hempty := strncmp_ne_zero_of_empty (m := (kssfsReadCluster s (UInt32.ofNat i)).buf)
        (fun a ha => by rw [hbuf a ha, hpacked.empty i (by omega) hfile a ha]) hc
      rw [if_neg hempty, hnil]
      refine ⟨hmounted, ⟨fun f hf _ => absurd hf List.not_mem_nil, fun _ => hfinds.missing ?_⟩⟩
      rw [List.drop_eq_nil_of_le (by rw [List.getElem?_eq_none_iff] at hfile; omega)]
      exact fun f hf => absurd hf List.not_mem_nil
    | some f =>
      obtain ⟨hlt, rfl⟩ := List.getElem?_eq_some_iff.mp hfile
      have hmem : files[i] ∈ files := List.getElem_mem hlt
      have hholds := (hpacked.holds i (by omega) _ hfile).congr (hfiles _ hmem).size hbuf
      rw [List.drop_eq_getElem_cons hlt]
      by_cases heq : files[i].name = c.name
      · rw [if_pos ((hholds.strncmp_iff (hfiles _ hmem) hc).mpr heq)]
        refine ⟨hs', ⟨fun g hg hgname => ?_, fun hnone => ?_⟩⟩
        · have hgmem : g ∈ files := by
            rw [← List.drop_eq_getElem_cons hlt] at hg
            exact List.mem_of_mem_drop hg
          have hsame : files[i] = g :=
            List.inj_on_of_nodup_map hnodup hmem hgmem (heq.trans hgname.symm)
          rw [← hsame]
          exact ⟨rfl, hholds.memcpy_eq c.dest⟩
        · exact absurd heq (hnone _ List.mem_cons_self)
      · rw [if_neg (mt (hholds.strncmp_iff (hfiles _ hmem) hc).mp heq)]
        refine ⟨hmounted, ⟨fun g hg hgname => ?_, fun hnone => ?_⟩⟩
        · rcases List.mem_cons.mp hg with rfl | hg
          · exact absurd hgname heq
          · exact hfinds.found g hg hgname
        · exact hfinds.missing fun g hg => hnone g (List.mem_cons_of_mem _ hg)

/-- One call of `kssfs_read_file` on the mounted image. -/
lemma kssfsReadFile_spec {c : ReadCall} (hc : c.Valid) {s : Kssfs} (hs : Mounted disk lba s) :
    Mounted disk lba (kssfsReadFile s c.dest c.filename).2.2 ∧
    Finds files c (kssfsReadFile s c.dest c.filename) := by
  have hne : s.lba ≠ 0 := by
    rw [hs.lba_eq]
    exact hlba
  have h := kssfsReadScan_spec hlba hn hfiles hnodup hpacked hc 256 0 s rfl hs
  rw [kssfsReadFile, if_neg hne, hs.clusterN_eq]
  exact h

end Lookup

/-! ## The round trip -/

/-- The kernel's state after a call of `kssfs_read_file`. -/
def readFileStep (s : Kssfs) (c : ReadCall) : Kssfs := (kssfsReadFile s c.dest c.filename).2.2

/-- The image starts with the file system header. -/
lemma format_getD_hdr (buf : ℕ → BYTE) (files : List SourceFile) {a : ℕ} (ha : a < 512) :
    (format buf files).getD a 0 = formatHeader a := by
  rw [format, List.append_assoc, List.getD_append _ _ _ _ (by simpa using ha), getD_toList ha,
    Nat.zero_add]

/-- The number of clusters in the header. -/
lemma le32_formatHeader_four : le32 formatHeader 4 = 256 := by
  rw [formatHeader, le32_blit_bytes32]

/-- The two words of the file system header on the disk. -/
lemma format_header {disk buf : ℕ → BYTE} {lba : LONG} {files : List SourceFile}
    (hdisk : OnDisk disk lba (format buf files)) :
    le32 disk (512 * lba.toNat) = KSSFS_SIGNATURE ∧ le32 disk (512 * lba.toNat + 4) = 256 := by
  have hbyte : ∀ a < 512, disk (512 * lba.toNat + a) = formatHeader a := by
    intro a ha
    have hlen : a < (format buf files).length := by
      simp only [format, List.length_append, length_toList]
      omega
    rw [hdisk a hlen, format_getD_hdr buf files ha]
  constructor
  · have hword : le32 disk (512 * lba.toNat) = le32 formatHeader 0 :=
      le32_congr fun k hk => by rw [hbyte k (by omega), Nat.zero_add]
    rw [hword, formatHeader, le32_blit_of_disjoint (by omega), le32_blit_bytes32]
  · have hword : le32 disk (512 * lba.toNat + 4) = le32 formatHeader 4 :=
      le32_congr fun k hk => by rw [Nat.add_assoc, hbyte (4 + k) (by omega)]
    rw [hword, le32_formatHeader_four]

/-- **mkfs.kssfs and the kernel agree.** If the image written for at most 256 files is on the
disk, the kernel mounts it, and in any sequence of calls `kssfs_read_file` finds the packed
names, copies exactly the bytes of the file, and finds no other name.

**Proof sketch.** The kernel's clusters are those of the image (`format_packedAt`); a call leaves
the file system mounted and its cache coherent (`kssfsReadFile_spec`), so that every call of a
sequence finds it so. -/
theorem format_round_trip {files : List SourceFile} (hn : files.length ≤ 256)
    (hfiles : ∀ f ∈ files, f.Packable) (hnodup : (files.map SourceFile.name).Nodup)
    (buf : ℕ → BYTE) {lba : LONG} (hlba : lba ≠ 0) (hwrap : lba.toNat + 4097 ≤ 2 ^ 32)
    {s : Kssfs} (hs : s.lba = 0) (hide : s.ide.Faithful)
    (hdisk : OnDisk s.ide.disk lba (format buf files)) :
    (kssfsInit s lba).1 = 1 ∧
    ∀ calls : List ReadCall, (∀ c ∈ calls, c.Valid) →
      Run.Along readFileStep (fun s c => Finds files c (kssfsReadFile s c.dest c.filename))
        (kssfsInit s lba).2 calls := by
  have hpacked := format_packedAt hn hfiles hwrap hdisk
  obtain ⟨hsignature, hcount⟩ := format_header hdisk
  obtain ⟨hsig, hmount⟩ := kssfsInit_mounted hide hs lba
  have hinit : (kssfsInit s lba).1 = 1 := hsig.mpr hsignature
  obtain ⟨hl, hidx, hclusters, hdrive⟩ := hmount hinit
  have hmounted : Mounted s.ide.disk lba (kssfsInit s lba).2 := by
    refine ⟨⟨?_, ?_, fun _ hne => absurd hidx hne⟩, hl, hclusters.trans hcount⟩
    · rw [hdrive]
      exact hide
    · rw [hdrive, Ide.tick_disk]
  refine ⟨hinit, fun calls hcalls => ?_⟩
  have hvalid : Run.Along readFileStep (fun _ c => c.Valid) (kssfsInit s lba).2 calls :=
    Run.along_iff_forall_mem.mpr hcalls
  refine Run.along_of_invariant ?_ ?_ hmounted hvalid
  · intro s c hs hc
    exact (kssfsReadFile_spec hlba hn hfiles hnodup hpacked hc hs).1
  · intro s c hs hc
    exact (kssfsReadFile_spec hlba hn hfiles hnodup hpacked hc hs).2

/-- A file named `a` with two bytes. -/
def sampleFile : SourceFile := ⟨[97], true, [1, 2], 0, 0, 0⟩

/-- A kernel before the mount, with an image at sector 1 of its drive. -/
def kernelWith (image : List BYTE) : Kssfs :=
  .boot ⟨fun a => image.getD (a - 512) 0, fun _ => false, 0⟩

lemma kernelWith_onDisk (image : List BYTE) : OnDisk (kernelWith image).ide.disk 1 image := by
  intro a _
  show image.getD (512 + a - 512) 0 = image.getD a 0
  rw [Nat.add_sub_cancel_left]

/-- A call that looks up a name. -/
def sampleCall (name : List BYTE) : ReadCall := ⟨fun _ => 0, name, ofList name⟩

/-- Looking up `a` and then `b` on the image of the file `a`. -/
theorem format_round_trip_two_calls :
    (kssfsInit (kernelWith (format (fun _ => 0) [sampleFile])) 1).1 = 1 ∧
    Run.Along readFileStep (fun s c => Finds [sampleFile] c (kssfsReadFile s c.dest c.filename))
      (kssfsInit (kernelWith (format (fun _ => 0) [sampleFile])) 1).2
      [sampleCall [97], sampleCall [98]] := by
  have hfile : ∀ f ∈ [sampleFile], f.Packable := by
    intro f hf
    obtain rfl : f = sampleFile := by simpa using hf
    exact ⟨rfl, by decide, by decide, by decide, by decide⟩
  have hcalls : ∀ c ∈ [sampleCall [97], sampleCall [98]], c.Valid := by
    intro c hc
    obtain rfl | rfl : c = sampleCall [97] ∨ c = sampleCall [98] := by simpa using hc
    · exact ⟨by decide, by decide, by decide, fun _ _ => rfl⟩
    · exact ⟨by decide, by decide, by decide, fun _ _ => rfl⟩
  obtain ⟨hinit, hread⟩ := format_round_trip (by decide) hfile (by decide) (fun _ => 0)
    (by decide) (by decide) rfl (fun _ => rfl) (kernelWith_onDisk _)
  exact ⟨hinit, hread _ hcalls⟩

end Korolev
