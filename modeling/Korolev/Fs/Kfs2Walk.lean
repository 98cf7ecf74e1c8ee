import Korolev.Fs.Kfs2Read
import Korolev.Library.Loop

set_option relaxedAutoImplicit false
set_option autoImplicit false

/-!
# The walk along the clusters of a KFS2 file

`kfs2_read_byte` once more, with both of its loops as they are written: the inner one is `while(1)`,
the outer one compares its counter with `off + n`. Every fetch from `kfs2_buf` is recorded with
the globals at that moment, so that it can be said which cluster is in the buffer then.

For a byte in cluster `0` of the file the walk is not started over, because the number of links
wanted is what is left in `clstr_n` from the last walk. The last walk was for a byte in cluster `0`,
too, as the bytes come in ascending order; so the buffer holds the right cluster already.

## Main definitions

* `Korolev.kfs2WalkBody` — the inner loop.
* `Korolev.kfs2ReadByteTrace` — `kfs2_read_byte`, with the fetches.

## Main results

* `Korolev.run_kfs2WalkBody` — the inner loop ends, where `Korolev.kfs2Walk` does.
* `Korolev.kfs2ReadByteTrace_eq` — the function is that of `Korolev.Fs.Kfs2`.
* `Korolev.kfs2Fetches_at` — what is in the buffer at every fetch.
* `Korolev.kfs2_chain_walk` — every byte is fetched from its cluster of the file.
-/

namespace Korolev

open Bytes

/-! ## The loops as they are written -/

/-- The globals, and the local variables that the inner loop of `kfs2_read_byte` uses. -/
structure Kfs2Walker where
  fs : Kfs2
  clstr : LONG
  clstrN : LONG

/-- The loop `while(1)` of `kfs2_read_byte`. -/
def kfs2WalkBody (w : Kfs2Walker) : Kfs2Walker ⊕ Kfs2Walker :=
  let w := { w with fs := kfs2ReadCluster w.fs w.clstr }
  if w.clstrN ≠ 0 then
    let w := { w with clstr := kfs2Next w.fs.buf }
    .inl { w with clstrN := w.clstrN - 1 }
  else .inr w

/-- A byte that is fetched from `kfs2_buf`: its index in the file, the globals at that moment, and
what is fetched. -/
structure Kfs2Fetch where
  i : LONG
  fs : Kfs2
  byte : BYTE

/-- The loop `for(int i = off; i < off + n; i++)` of `kfs2_read_byte`, for `last` the value of
`off + n`, with fuel for its rounds and for the inner loop. -/
def kfs2FetchLoop (fuel : ℕ) (start last : LONG) (stray : Kfs2Below) :
    (rounds : ℕ) → (i : LONG) → Kfs2Walker → Option (Kfs2 × List Kfs2Fetch)
  | 0, _, _ => none
  | rounds + 1, i, w =>
    if i < last then
      let t := kfs2ByteClstr i
      let w := if t ≠ w.clstrN then { w with clstr := start, clstrN := t } else w
      match Loop.run kfs2WalkBody fuel w with
      | none => none
      | some w =>
        let f : Kfs2Fetch := ⟨i, w.fs, kfs2BufAt w.fs stray i (kfs2ByteIndex i)⟩
        (kfs2FetchLoop fuel start last stray rounds (i + 1) w).map fun r => (r.1, f :: r.2)
    else some (w.fs, [])

/-- `kfs2_read_byte(file, dest, n, off)`: the count returned, the bytes with their fetches, and the
globals. -/
def kfs2ReadByteTrace (fuel : ℕ) (s : Kfs2) (clstrN₀ : LONG) (stray : Kfs2Below)
    (file n off : LONG) : Option (LONG × List Kfs2Fetch × Kfs2) :=
  let f := s.handles file.toNat
  if f.flags &&& 1 = 0 then some (0, [], { s with err := ENOENT })
  else
    (kfs2FetchLoop fuel f.startclstr (off + n) stray fuel off ⟨s, 0, clstrN₀⟩).map fun r =>
      (UInt32.ofNat r.2.length, r.2, r.1)

/-- The fetches of the loop of `Korolev.kfs2ReadLoop`. -/
def kfs2Fetches (start : LONG) (stray : Kfs2Below) :
    (n : ℕ) → (i clstr clstrN : LONG) → Kfs2 → List Kfs2Fetch
  | 0, _, _, _, _ => []
  | n + 1, i, clstr, clstrN, s =>
    let t := kfs2ByteClstr i
    let c := if t ≠ clstrN then (start, t) else (clstr, clstrN)
    let w := kfs2Walk s c.1 c.2.toNat
    ⟨i, w.1, kfs2BufAt w.1 stray i (kfs2ByteIndex i)⟩ ::
      kfs2Fetches start stray n (i + 1) w.2 0 w.1

/-! ## The loops end -/

/-- **The inner loop ends**, for every number of links. -/
lemma run_kfs2WalkBody (s : Kfs2) (clstr : LONG) {k : ℕ} (hk : k < 2 ^ 32) :
    Loop.run kfs2WalkBody (k + 1) ⟨s, clstr, UInt32.ofNat k⟩ =
      some ⟨(kfs2Walk s clstr k).1, (kfs2Walk s clstr k).2, 0⟩ := by
  induction k generalizing s clstr with
  | zero => rfl
  | succ k ih =>
    have hbody : kfs2WalkBody ⟨s, clstr, UInt32.ofNat (k + 1)⟩ = .inl
        ⟨kfs2ReadCluster s clstr, kfs2Next (kfs2ReadCluster s clstr).buf, UInt32.ofNat k⟩ := by
      rw [kfs2WalkBody]
      dsimp only
      rw [if_pos (ofNat_succ_ne_zero hk), ofNat_succ_sub_one]
    rw [Loop.run_next hbody, ih _ _ (by omega)]
    rfl

section Fetches

variable (start : LONG) (stray : Kfs2Below)

/-- The fetches are those of the bytes that are read. -/
lemma kfs2Fetches_byte (n : ℕ) : ∀ (i clstr clstrN : LONG) (s : Kfs2),
    (kfs2Fetches start stray n i clstr clstrN s).map Kfs2Fetch.byte =
      (kfs2ReadLoop start stray n i clstr clstrN s).2 := by
  induction n with
  | zero => exact fun i clstr clstrN s => rfl
  | succ n ih =>
    intro i clstr clstrN s
    rw [kfs2Fetches, kfs2ReadLoop]
    exact congrArg _ (ih _ _ _ _)

/-- The bytes are fetched in ascending order. -/
lemma kfs2Fetches_index (n : ℕ) : ∀ (i clstr clstrN : LONG) (s : Kfs2),
    (kfs2Fetches start stray n i clstr clstrN s).map Kfs2Fetch.i =
      (List.range n).map fun k => i + UInt32.ofNat k := by
  induction n with
  | zero => exact fun i clstr clstrN s => rfl
  | succ n ih =>
    intro i clstr clstrN s
    rw [kfs2Fetches, List.map_cons, ih, List.range_succ_eq_map, List.map_cons, List.map_map]
    refine List.cons_eq_cons.mpr ⟨(add_ofNat_zero i).symm, List.map_congr_left fun k _ => ?_⟩
    exact add_one_add_ofNat i k

/-- **The outer loop ends** behind the last byte, if the counter does not wrap. -/
lemma kfs2FetchLoop_eq {fuel : ℕ} (hfuel : 2 ^ 32 ≤ fuel) (n : ℕ) :
    ∀ {rounds : ℕ} {i : LONG}, i.toNat + n < 2 ^ 32 → n < rounds →
      ∀ (clstr clstrN : LONG) (s : Kfs2),
      kfs2FetchLoop fuel start (i + UInt32.ofNat n) stray rounds i ⟨s, clstr, clstrN⟩ =
        some ((kfs2ReadLoop start stray n i clstr clstrN s).1,
          kfs2Fetches start stray n i clstr clstrN s) := by
  induction n with
  | zero =>
    intro rounds i _ hrounds clstr clstrN s
    obtain ⟨rounds, rfl⟩ : ∃ r, rounds = r + 1 := ⟨rounds - 1, by omega⟩
    rw [kfs2FetchLoop, add_ofNat_zero, if_neg (UInt32.lt_irrefl i)]
    rfl
  | succ n ih =>
    intro rounds i hi hrounds clstr clstrN s
    obtain ⟨rounds, rfl⟩ : ∃ r, rounds = r + 1 := ⟨rounds - 1, by omega⟩
    have hlt : i < i + UInt32.ofNat (n + 1) := by
      rw [UInt32.lt_iff_toNat_lt, toNat_add_ofNat hi]
      omega
    have hnext : (i + 1).toNat = i.toNat + 1 := by
      have hone := toNat_add_ofNat (i := i) (k := 1) (by omega)
      exact hone
    -- the walk for the first byte
    have hwalk : ∀ w : Kfs2Walker, Loop.run kfs2WalkBody fuel w =
        some ⟨(kfs2Walk w.fs w.clstr w.clstrN.toNat).1, (kfs2Walk w.fs w.clstr w.clstrN.toNat).2,
          0⟩ := by
      rintro ⟨fs, clstr, clstrN⟩
      have hN := clstrN.toNat_lt
      have hrun := run_kfs2WalkBody fs clstr hN
      rw [UInt32.ofNat_toNat] at hrun
      exact Loop.run_mono (by omega) hrun
    have hrest : ∀ clstr clstrN s, kfs2FetchLoop fuel start (i + 1 + UInt32.ofNat n) stray rounds
        (i + 1) ⟨s, clstr, clstrN⟩ = some ((kfs2ReadLoop start stray n (i + 1) clstr clstrN s).1,
          kfs2Fetches start stray n (i + 1) clstr clstrN s) := ih (by omega) (by omega)
    rw [add_one_add_ofNat] at hrest
    rw [kfs2FetchLoop, if_pos hlt, kfs2ReadLoop, kfs2Fetches]
    dsimp only
    rw [hwalk]
    dsimp only
    rw [hrest]
    split_ifs <;> rfl

end Fetches

/-- The function is that of `Korolev.Fs.Kfs2`, with its fetches. -/
lemma kfs2ReadByteTrace_eq (s : Kfs2) (clstrN₀ : LONG) (stray : Kfs2Below)
    {file n off : LONG} (hopen : (s.handles file.toNat).Open)
    (hsmall : off.toNat + n.toNat < 2 ^ 32) :
    kfs2ReadByteTrace (2 ^ 32) s clstrN₀ stray file n off =
      some ((kfs2ReadByte s clstrN₀ stray file n off).1,
        kfs2Fetches (s.handles file.toNat).startclstr stray n.toNat off 0 clstrN₀ s,
        (kfs2ReadByte s clstrN₀ stray file n off).2.2) ∧
    (kfs2ReadByte s clstrN₀ stray file n off).2.1 =
      (kfs2Fetches (s.handles file.toNat).startclstr stray n.toNat off 0 clstrN₀ s).map
        Kfs2Fetch.byte ∧
    (kfs2ReadByte s clstrN₀ stray file n off).1 = n := by
  have hlen : (off + n).toNat - off.toNat = n.toNat := by
    rw [UInt32.toNat_add]
    omega
  have hloop := kfs2FetchLoop_eq (s.handles file.toNat).startclstr stray le_rfl n.toNat hsmall
    n.toNat_lt 0 clstrN₀ s
  rw [UInt32.ofNat_toNat] at hloop
  have hbyte := kfs2Fetches_byte (s.handles file.toNat).startclstr stray n.toNat off 0 clstrN₀ s
  have hindex := kfs2Fetches_index (s.handles file.toNat).startclstr stray n.toNat off 0 clstrN₀ s
  have hcount := congrArg List.length hindex
  rw [List.length_map, List.length_map, List.length_range] at hcount
  have hbytes := congrArg List.length hbyte
  rw [List.length_map, hcount] at hbytes
  rw [kfs2ReadByteTrace, kfs2ReadByte]
  dsimp only
  rw [if_neg hopen, if_neg hopen, hlen, hloop, ← hbytes, UInt32.ofNat_toNat, Option.map_some,
    hcount, UInt32.ofNat_toNat]
  exact ⟨rfl, hbyte.symm, rfl⟩

/-! ## What is in the buffer -/

section Chain

variable {disk : ℕ → BYTE} {lba clusterN start : LONG} {buf : ℕ → BYTE} {stray : Kfs2Below} {m : ℕ}
  (hlba : lba ≠ 0) (hchain : ∀ j < m, fileCluster disk lba start j < clusterN)
include hlba hchain

/-- The bytes behind byte `i`, which was fetched from its cluster of the file.

**Proof sketch.** Induction on the number of bytes. A walk that is not started over is for a byte of
cluster `0` of the file, and then byte `i` is in cluster `0`, too. -/
lemma kfs2Fetches_at (n : ℕ) : ∀ (i clstr : LONG) (s : Kfs2),
    s.At disk lba clusterN buf (fileCluster disk lba start (i.toNat / 7680)) →
    kfs2ReadCluster s clstr = s → i.toNat + n < 7680 * m → i.toNat + n < 2 ^ 31 →
    ∀ f ∈ kfs2Fetches start stray n (i + 1) clstr 0 s,
      f.fs.At disk lba clusterN buf (fileCluster disk lba start (f.i.toNat / 7680)) := by
  induction n with
  | zero => exact fun i clstr s _ _ _ _ f hf => absurd hf List.not_mem_nil
  | succ n ih =>
    intro i clstr s hat hagain hm hsmall f hf
    have hnext : (i + 1).toNat = i.toNat + 1 := toNat_add_ofNat (k := 1) (by omega)
    have ht : (kfs2ByteClstr (i + 1)).toNat = (i.toNat + 1) / 7680 := by
      rw [kfs2ByteClstr_of_lt (by omega), hnext]
    have hstart : start ≤ clusterN := UInt32.le_of_lt (hchain 0 (by omega))
    obtain ⟨hat', hagain'⟩ := kfs2Walk_next hlba hstart hat hagain (i + 1)
    -- the cluster that is reached is that of byte `i + 1`
    have hcluster : (if kfs2ByteClstr (i + 1) = 0 then fileCluster disk lba start (i.toNat / 7680)
        else kfs2Follow disk lba clusterN start (kfs2ByteClstr (i + 1)).toNat) =
        fileCluster disk lba start ((i + 1).toNat / 7680) := by
      by_cases hz : kfs2ByteClstr (i + 1) = 0
      · rw [hz, UInt32.toNat_zero] at ht
        have hsame : i.toNat / 7680 = (i + 1).toNat / 7680 := by omega
        rw [if_pos hz, hsame]
      · rw [if_neg hz, ht, hnext]
        exact kfs2Follow_eq_fileCluster hchain (by omega)
    rw [hcluster] at hat'
    rw [kfs2Fetches] at hf
    rcases List.mem_cons.mp hf with rfl | hf
    · exact hat'
    · exact ih (i + 1) _ _ hat' hagain' (by omega) (by omega) f hf

end Chain

/-- **The walk along the clusters.** In every state that is reached from boot on a working drive,
with a file system mounted: for every open file whose first `m` clusters are in range, every read
inside of these clusters and below `2 ^ 31`, and every value of the uninitialised variable other
than the number of the first byte's cluster, both loops end. The bytes are fetched in ascending
order; when byte `i` is fetched, the buffer holds cluster `i / 7680` of the file. The call returns
`n`, and changes neither the table of open files nor the disk. -/
theorem kfs2_chain_walk (ide : Ide) (hide : ide.Faithful) (ops : List Kfs2Op) (clstrN₀ : LONG)
    (stray : Kfs2Below) (file n off : LONG) (m : ℕ) :
    let s := Run.run Kfs2.step (Kfs2.boot ide) ops
    let start := (s.handles file.toNat).startclstr
    s.lba ≠ 0 → file.toNat < KFS2_MAX_FILES → (s.handles file.toNat).Open →
    (∀ j < m, fileCluster ide.disk s.lba start j < s.clusterN) →
    off.toNat + n.toNat ≤ 7680 * m → off.toNat + n.toNat < 2 ^ 31 →
    clstrN₀.toNat ≠ off.toNat / 7680 →
    ∃ fuel fetches s', kfs2ReadByteTrace fuel s clstrN₀ stray file n off = some (n, fetches, s') ∧
      kfs2ReadByte s clstrN₀ stray file n off = (n, fetches.map Kfs2Fetch.byte, s') ∧
      fetches.map Kfs2Fetch.i = (List.range n.toNat).map (fun k => off + UInt32.ofNat k) ∧
      (∀ f ∈ fetches, ∀ a < 8192, f.fs.buf a =
        clusterByte ide.disk s.lba (fileCluster ide.disk s.lba start (f.i.toNat / 7680)) a) ∧
      s'.handles = s.handles ∧ s'.ide.disk = ide.disk := by
  intro s start hlba hfile hopen hchain hm hsmall hN
  obtain ⟨hinv, hinside⟩ : s.Inv ide.disk ∧ s.StartsInside := Kfs2.reachable hide ops
  obtain ⟨htrace, hbytes, hcount⟩ := kfs2ReadByteTrace_eq s clstrN₀ stray hopen
    (show off.toNat + n.toNat < 2 ^ 32 by omega)
  rw [hcount] at htrace
  refine ⟨_, _, _, htrace, Prod.ext hcount (Prod.ext hbytes rfl), kfs2Fetches_index _ _ _ _ _ _ _,
    fun f hf => ?_, (kfs2ReadByte_frame s clstrN₀ stray file n off).1,
    (Kfs2.inv_readByte hinv clstrN₀ stray file n off).disk_eq⟩
  suffices hat : f.fs.At ide.disk s.lba s.clusterN s.buf
      (fileCluster ide.disk s.lba start (f.i.toNat / 7680)) from fun a ha => hat.cell ha
  cases hlen : n.toNat with
  | zero =>
    rw [hlen] at hf
    exact absurd hf List.not_mem_nil
  | succ len =>
    -- the walk for the first byte starts at the first cluster of the file
    have ht : (kfs2ByteClstr off).toNat = off.toNat / 7680 := kfs2ByteClstr_of_lt (by omega)
    have hne : kfs2ByteClstr off ≠ clstrN₀ := by
      rintro rfl
      exact hN ht
    obtain ⟨hat, hagain⟩ := kfs2Walk_first hinv hlba (hinside hlba _ hfile hopen) clstrN₀ off
    have hfirst : kfs2First ide.disk s.lba s.clusterN start clstrN₀ off =
        fileCluster ide.disk s.lba start (off.toNat / 7680) := by
      rw [kfs2First, if_pos hne, ht]
      exact kfs2Follow_eq_fileCluster hchain (by omega)
    rw [hfirst] at hat
    rw [hlen, kfs2Fetches] at hf
    rcases List.mem_cons.mp hf with rfl | hf
    · exact hat
    · exact kfs2Fetches_at hlba hchain len off _ _ hat hagain (by omega) (by omega) f hf

/-- The last byte of the first cluster and the first byte of the second one, in a file whose cluster
links to itself. -/
theorem kfs2_chain_walk_revisited :
    let s := Run.run Kfs2.step (Kfs2.boot kfs2OneFileIde) [.init 1, .openFile (ofList [0x69])]
    ∃ fuel fetches s', kfs2ReadByteTrace fuel s 5 (fun _ _ _ _ => 0) 0 2 7679 =
      some (2, fetches, s') ∧
      fetches.map Kfs2Fetch.i = [7679, 7680] ∧
      ∀ f ∈ fetches, ∀ a < 8192, f.fs.buf a = clusterByte kfs2OneFileIde.disk 1 0 a := by
  have hwalk := kfs2_chain_walk kfs2OneFileIde (fun _ => rfl) [.init 1, .openFile (ofList [0x69])] 5
    (fun _ _ _ _ => 0) 0 2 7679 2
  generalize hs : Run.run Kfs2.step (Kfs2.boot kfs2OneFileIde)
    [.init 1, .openFile (ofList [0x69])] = s at hwalk ⊢
  obtain ⟨hlba, hn, hslot⟩ := kfs2OneFile_opened hs.symm
  simp only [UInt32.toNat_zero, hlba, hn, hslot] at hwalk
  have hself : ∀ j, fileCluster kfs2OneFileIde.disk 1 0 j = 0 := by
    intro j
    apply Function.iterate_fixed
    decide
  obtain ⟨fuel, fetches, s', htrace, -, hindex, hbuf, -⟩ := hwalk (by decide) (by decide)
    (by decide) (fun j _ => by rw [hself]; decide) (by decide) (by decide) (by decide)
  refine ⟨fuel, fetches, s', htrace, hindex, fun f hf a ha => ?_⟩
  rw [hbuf f hf a ha, hself]

end Korolev
