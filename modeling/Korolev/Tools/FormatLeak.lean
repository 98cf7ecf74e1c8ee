import Korolev.Tools.FormatGeometry
import Mathlib.Data.List.Induction

set_option relaxedAutoImplicit false
set_option autoImplicit false

/-!
# What mkfs.kssfs leaves in its buffer

`tools/format.c` reads one file after the other into a buffer of 7680 bytes, and writes all of it
behind the header of the file. Before a file is read, only the first 512 bytes of the buffer are
cleared. So behind these and behind the end of the file, its cluster has what was in the buffer
before: the bytes of the last earlier file that reached so far, or else what was on the stack.

## Main definitions

* `Korolev.clusterBytes` — the bytes written for a file.
* `Korolev.leftover` — what earlier files and the stack leave in the buffer.

## Main results

* `Korolev.clusterBytes_format` — the bytes written for a file, by the buffer before it.
* `Korolev.mkfs_kssfs_isolated_iff` — when they do not depend on the other files.
-/

namespace Korolev

open Bytes

/-- Cluster `i` of an image. -/
def clusterBytes (image : List BYTE) (i : ℕ) : List BYTE := (image.drop (512 + 8192 * i)).take 8192

/-- What is at position `k` of the buffer, behind the part that is cleared, after the files `prev`:
the byte of the last of them that is longer than `k`, or else what was there at the start. -/
def leftover (buf : ℕ → BYTE) (prev : List SourceFile) (k : ℕ) : BYTE :=
  match prev.reverse.find? fun f => k < f.content.length with
  | some f => ofList f.content k
  | none => buf k

section Leak

variable {buf buf' : ℕ → BYTE} {f : SourceFile}

/-- The buffer after a file was read: its contents, zeros in the part that is cleared, and behind
that what was there before. -/
lemma formatRead_apply (hsize : f.content.length ≤ 7680) (k : ℕ) :
    formatRead buf f k =
      if k < f.content.length then ofList f.content k else if k < 512 then 0 else buf k := by
  rw [formatRead, Nat.min_eq_left hsize]
  by_cases hk : k < f.content.length
  · rw [if_pos hk, blit_of_mem (by omega) (by omega), Nat.sub_zero]
  · rw [if_neg hk, blit_of_not_mem (by omega)]
    by_cases h512 : k < 512
    · rw [if_pos h512, blit_of_mem (by omega) (by omega)]
    · rw [if_neg h512, blit_of_not_mem (by omega)]

/-- **The buffer after some files**, behind the part that is cleared.

**Proof sketch.** Induction on the list of files, from its end. -/
lemma foldl_formatRead {k : ℕ} (h512 : 512 ≤ k) (prev : List SourceFile)
    (hprev : ∀ g ∈ prev, g.Packs) : prev.foldl formatRead buf k = leftover buf prev k := by
  induction prev using List.reverseRecOn with
  | nil => rfl
  | append_singleton prev g ih =>
    have hg : g.Packs := hprev g (by simp)
    have hrest := ih fun g' hg' => hprev g' (by simp [hg'])
    rw [List.foldl_append, List.foldl_cons, List.foldl_nil, formatRead_apply hg.2, leftover,
      List.reverse_append, List.reverse_singleton, List.singleton_append, List.find?_cons]
    by_cases hk : k < g.content.length
    · simp only [hk, decide_true, if_true]
    · simp only [hk, decide_false, if_false, not_lt.mpr h512]
      exact hrest

/-- **The bytes of one cluster**, among those of all files. -/
lemma take_drop_formatFiles : ∀ (files : List SourceFile) (buf : ℕ → BYTE) (i : ℕ),
    (∀ g ∈ files, g.Packs) → files[i]? = some f →
    ((formatFiles buf files).drop (8192 * i)).take 8192 =
      packedCluster ((files.take i).foldl formatRead buf) f
  | [], _, _, _, hf => by simp at hf
  | g :: files, buf, 0, hpack, hf => by
    obtain rfl : g = f := by simpa using hf
    have hg := hpack g (by simp)
    rw [formatFiles, formatFile_of_le buf hg.1 hg.2]
    exact List.take_left' (length_packedCluster buf g)
  | g :: files, buf, i + 1, hpack, hf => by
    have hg := hpack g (by simp)
    have hidx : 8192 * (i + 1) = (packedCluster buf g).length + 8192 * i := by
      rw [length_packedCluster]
      omega
    rw [formatFiles, formatFile_of_le buf hg.1 hg.2, hidx, List.drop_length_add_append,
      take_drop_formatFiles files _ i (fun g' hg' => hpack g' (by simp [hg'])) (by simpa using hf)]
    rfl

/-- The bytes written for a file are its header and the buffer after it was read. -/
lemma clusterBytes_format {files : List SourceFile} (hpack : ∀ g ∈ files, g.Packs) {i : ℕ}
    (hf : files[i]? = some f) : clusterBytes (format buf files) i =
      packedCluster ((files.take i).foldl formatRead buf) f := by
  have hlt : i < files.length := (List.getElem?_eq_some_iff.mp hf).1
  have hlen : (formatFiles buf files).length = 8192 * files.length := by
    rw [length_formatFiles, (length_packedFiles_eq_iff files).mpr hpack]
  have hhdr : 512 + 8192 * i = (toList formatHeader 0 512).length + 8192 * i := by
    rw [length_toList]
  have hin : 8192 ≤ ((formatFiles buf files).drop (8192 * i)).length := by
    rw [List.length_drop, hlen]
    omega
  rw [clusterBytes, format, List.append_assoc, hhdr, List.drop_length_add_append,
    List.drop_append_of_le_length (by omega), List.take_append_of_le_length hin,
    take_drop_formatFiles files buf i hpack hf]

/-- Two clusters of one file are equal iff the buffers were, where the file does not reach and
nothing is cleared. -/
lemma packedCluster_eq_iff (hsize : f.content.length ≤ 7680) :
    packedCluster buf f = packedCluster buf' f ↔
      ∀ k, 512 ≤ k → f.content.length ≤ k → k < 7680 → buf k = buf' k := by
  constructor
  · intro h k h512 hlen hk
    have hbyte : formatRead buf f k = formatRead buf' f k := by
      rw [← packedCluster_data buf f hk, h, packedCluster_data buf' f hk]
    rwa [formatRead_apply hsize, formatRead_apply hsize, if_neg (by omega), if_neg (by omega),
      if_neg (by omega), if_neg (by omega)] at hbyte
  · intro h
    have hread : toList (formatRead buf f) 0 7680 = toList (formatRead buf' f) 0 7680 := by
      refine List.map_congr_left fun k hk => ?_
      rw [Nat.zero_add, formatRead_apply hsize, formatRead_apply hsize]
      split_ifs with hlen h512
      · rfl
      · rfl
      · exact h k (by omega) (by omega) (List.mem_range.mp hk)
    rw [packedCluster, packedCluster, hread]

end Leak

/-- **When files are not mixed.** For any two runs over files that can all be packed, with the same
file `f` as number `i`, whatever the other files are and whatever is on the stack: the bytes written
for `f` are the same iff behind its end and behind the first 512 bytes, the last earlier file that
reaches so far (or the stack) has the same bytes in both runs. -/
theorem mkfs_kssfs_isolated_iff (buf buf' : ℕ → BYTE) {files files' : List SourceFile}
    (hpack : ∀ g ∈ files, g.Packs) (hpack' : ∀ g ∈ files', g.Packs) {i : ℕ} {f : SourceFile}
    (hf : files[i]? = some f) (hf' : files'[i]? = some f) :
    clusterBytes (format buf files) i = clusterBytes (format buf' files') i ↔
      ∀ k, 512 ≤ k → f.content.length ≤ k → k < 7680 →
        leftover buf (files.take i) k = leftover buf' (files'.take i) k := by
  have hsize : f.content.length ≤ 7680 := (hpack f (List.mem_of_getElem? hf)).2
  rw [clusterBytes_format hpack hf, clusterBytes_format hpack' hf', packedCluster_eq_iff hsize]
  refine forall₂_congr fun k h512 => ?_
  rw [foldl_formatRead h512 _ fun g hg => hpack g (List.mem_of_mem_take hg),
    foldl_formatRead h512 _ fun g hg => hpack' g (List.mem_of_mem_take hg)]

/-- A file of 513 bytes, of which the last is always the same. -/
def endingFile (b : BYTE) : SourceFile := ⟨[97], true, List.replicate 512 b ++ [9], 0, 0, 0⟩

lemma length_endingFile (b : BYTE) : (endingFile b).content.length = 513 := by
  rw [endingFile, List.length_append, List.length_replicate]
  rfl

/-- Behind the part that is cleared such a file leaves its last byte. -/
lemma leftover_endingFile (buf : ℕ → BYTE) (b : BYTE) {k : ℕ} (h512 : 512 ≤ k) :
    leftover buf [endingFile b] k = if k = 512 then 9 else buf k := by
  rw [leftover, List.reverse_singleton, List.find?_singleton, length_endingFile]
  by_cases hk : k = 512
  · subst hk
    show ofList (endingFile b).content 512 = 9
    rw [ofList, endingFile, List.getD_append_right _ _ _ _ List.length_replicate.le,
      List.length_replicate]
    rfl
  · rw [if_neg hk, decide_eq_false (by omega)]
    rfl

/-- The cluster of a short file behind one of two that end in the same way, with stacks that differ
in the part that is cleared. -/
theorem mkfs_kssfs_isolated_iff_ending :
    clusterBytes (format (fun _ => 0) [endingFile 1, sampleFile]) 1 =
      clusterBytes (format (fun k => if k < 512 then 255 else 0) [endingFile 2, sampleFile]) 1 := by
  have hpack : ∀ b, ∀ g ∈ [endingFile b, sampleFile], g.Packs := by
    intro b g hg
    simp only [List.mem_cons, List.not_mem_nil, or_false] at hg
    obtain rfl | rfl := hg
    · exact ⟨rfl, by rw [length_endingFile]; omega⟩
    · exact ⟨rfl, by decide⟩
  refine (mkfs_kssfs_isolated_iff (fun _ => 0) (fun k => if k < 512 then 255 else 0) (hpack 1)
    (hpack 2) (i := 1) (f := sampleFile) rfl rfl).mpr fun k h512 _ _ => ?_
  show leftover _ [endingFile 1] k = leftover _ [endingFile 2] k
  rw [leftover_endingFile _ _ h512, leftover_endingFile _ _ h512, if_neg (Nat.not_lt.mpr h512)]

/-- A file of 513 bytes. -/
def longFile (b : BYTE) : SourceFile := ⟨[97], true, List.replicate 513 b, 0, 0, 0⟩

/-- The cluster of a short file has the last byte of the longer one before it. -/
theorem mkfs_kssfs_leaks :
    ofList (clusterBytes (format (fun _ => 0) [longFile 1, sampleFile]) 1) 1024 = 1 ∧
    ofList (clusterBytes (format (fun _ => 0) [longFile 2, sampleFile]) 1) 1024 = 2 ∧
    clusterBytes (format (fun _ => 0) [longFile 1, sampleFile]) 1 ≠
      clusterBytes (format (fun _ => 0) [longFile 2, sampleFile]) 1 := by
  have hbyte : ∀ b, ofList (clusterBytes (format (fun _ => 0) [longFile b, sampleFile]) 1) 1024 =
      b := by
    intro b
    have hlong : (longFile b).content.length = 513 := List.length_replicate
    have hpack : ∀ g ∈ [longFile b, sampleFile], g.Packs := by
      simp only [List.mem_cons, List.not_mem_nil, or_false]
      rintro g (rfl | rfl)
      · exact ⟨rfl, by omega⟩
      · exact ⟨rfl, by decide⟩
    rw [clusterBytes_format hpack (i := 1) (f := sampleFile) rfl,
      packedCluster_data _ _ (k := 512) (by omega), formatRead_apply (by decide),
      if_neg (by decide), if_neg (by omega)]
    rw [List.take_succ_cons, List.take_zero, List.foldl_cons, List.foldl_nil,
      formatRead_apply (by omega), if_pos (by omega), ofList, longFile,
      List.getD_replicate _ (by omega)]
  refine ⟨hbyte 1, hbyte 2, fun h => ?_⟩
  have heq := (hbyte 1).symm.trans ((congrArg (ofList · 1024) h).trans (hbyte 2))
  exact absurd heq (by decide)

end Korolev
