import Korolev.Kernel.MemoryChunk
import Korolev.Kernel.Multiboot

set_option relaxedAutoImplicit false
set_option autoImplicit false

/-!
# The memory that is given out

`kmain` hands the information of the boot loader to `multiboot_process`, which hands the memory map
to `mmgmt_init`. From then on `malloc` gives out pages of the longest available region, from its
start on. Nothing is set aside: the boot loader reports the memory that the kernel itself was loaded
to as available, too.

The commands of the command line do not call the allocator.

## Main definitions

* `Korolev.heapHandlers` — what the tags do to the allocator.
* `Korolev.Mmgmt.Reaches` — a byte can be in a block.
* `Korolev.Mmgmt.GivesOut` — what `malloc` does with a region.

## Main results

* `Korolev.multibootProcess_heap` — the allocator is set up from the last memory map.
* `Korolev.Mmgmt.Fits32.reaches_iff` — what memory can be given out.
* `Korolev.boot_heap_iff` — where blocks lie after booting.
-/

namespace Korolev

open Bytes

/-! ## From the boot loader to the allocator -/

/-- What the tags do to the allocator. -/
def heapHandlers : TagHandlers Mmgmt where
  clear := id
  cmdline := fun _ s => s
  mmgmtInit := fun mmap n _ => mmgmtInit mmap n

section Boot

variable {mem : ℕ → BYTE} {address : LONG} {hdr : List BYTE} {tags pre post : List Mb2Tag}
  {t : Mb2Tag} {entries : List (MmapEntry × LONG)}

lemma tagAddrs_append (a : ℕ) :
    tagAddrs a (pre ++ post) =
      tagAddrs a pre ++ tagAddrs (a + (pre.flatMap Mb2Tag.bytes).length) post := by
  induction pre generalizing a with
  | nil => rfl
  | cons t pre ih =>
    simp only [List.cons_append, tagAddrs, ih, List.flatMap_cons, List.length_append, Nat.add_assoc]

/-- Other tags leave the allocator alone. -/
lemma foldl_tags_ne {addrs : List LONG}
    (h : List.Forall₂ (fun tag t => Holds mem tag.toNat t.bytes ∧
      tag.toNat + t.bytes.length + 8 ≤ 2 ^ 32) addrs post)
    (hne : ∀ t ∈ post, t.type ≠ MULTIBOOT_TAG_TYPE_MMAP) (s : Mmgmt) :
    addrs.foldl (fun s tag => multibootTag mem heapHandlers tag s) s = s := by
  induction h generalizing s with
  | nil => rfl
  | @cons tag t addrs post ht _ ih =>
    have hword := (tag_words ht.1 tag.toNat_lt).1
    rw [UInt32.ofNat_toNat] at hword
    have hother : tagType mem tag ≠ MULTIBOOT_TAG_TYPE_MMAP := by
      rw [hword]
      exact hne t List.mem_cons_self
    have hsame : multibootTag mem heapHandlers tag s = s := by
      simp only [multibootTag, if_neg hother]
      split_ifs <;> rfl
    rw [List.foldl_cons, hsame]
    exact ih (fun t ht => hne t (List.mem_cons_of_mem _ ht)) s

/-- **The allocator is set up from the last memory map.** -/
lemma multibootProcess_heap (hhdr : hdr.length = 8)
    (hfits : address.toNat + (mb2Block hdr (pre ++ t :: post)).length ≤ 2 ^ 32)
    (hmem : Holds mem address.toNat (mb2Block hdr (pre ++ t :: post)))
    (hmmap : t.IsMmap entries) (hlast : ∀ t' ∈ post, t'.type ≠ MULTIBOOT_TAG_TYPE_MMAP) :
    ∃ (mmap : ℕ → MmapEntry) (n : Int32), n.toInt = entries.length ∧
      (∀ i (hi : i < entries.length), mmap i = entries[i].1) ∧
      ∀ fuel, (pre ++ t :: post).length < fuel → ∀ s,
        multibootProcess mem heapHandlers fuel address s = some (mmgmtInit mmap n) := by
  rw [mb2Block, List.length_append, hhdr] at hfits
  rw [mb2Block, holds_append, hhdr] at hmem
  have hstart : address + 8 = UInt32.ofNat (address.toNat + 8) := by
    rw [UInt32.ofNat_add, UInt32.ofNat_toNat]
    rfl
  -- the tags from the memory map on
  have htail : Holds mem (address.toNat + 8 + (pre.flatMap Mb2Tag.bytes).length)
      ((t :: post).flatMap Mb2Tag.bytes ++ mb2End) := by
    have hall := hmem.2
    rw [List.flatMap_append, List.append_assoc, holds_append] at hall
    exact hall.2
  have hend : address.toNat + 8 + (pre.flatMap Mb2Tag.bytes).length +
      ((t :: post).flatMap Mb2Tag.bytes ++ mb2End).length ≤ 2 ^ 32 := by
    rw [List.flatMap_append, List.append_assoc, List.length_append] at hfits
    omega
  have hplaces := forall₂_tagAddrs (t :: post) _ htail hend
  rw [tagAddrs, List.forall₂_cons] at hplaces
  obtain ⟨mmap, n, hn, hentries, htag⟩ :=
    multibootTag_mmap heapHandlers hplaces.1.1 hplaces.1.2 hmmap
  refine ⟨mmap, n, hn, hentries, fun fuel hfuel s => ?_⟩
  rw [multibootProcess, hstart,
    multibootLoop_eq heapHandlers (pre ++ t :: post) _ hmem.2 (by omega) fuel hfuel s,
    tagAddrs_append, List.foldl_append, tagAddrs, List.foldl_cons, htag,
    foldl_tags_ne hplaces.2 hlast]
  rfl

end Boot

/-! ## Blocks -/

/-- The byte is in a whole page of the region that can be in a block: a block at address `0` is
`NULL`. -/
def MmapEntry.Given (e : MmapEntry) (x : ℕ) : Prop :=
  e.addr.toNat ≤ x ∧ x < e.addr.toNat + e.len.toNat / 4096 * 4096 ∧ (e.addr = 0 → 4096 ≤ x)

instance (e : MmapEntry) (x : ℕ) : Decidable (e.Given x) := inferInstanceAs (Decidable (_ ∧ _ ∧ _))

/-- The byte is in a block of some run of calls whose requests fit. -/
def Mmgmt.Reaches (s : Mmgmt) (x : ℕ) : Prop :=
  ∃ ops, Run.Along Mmgmt.step Mmgmt.RequestFits s ops ∧ ∃ b ∈ s.blocks ops, b.1 ≤ x ∧ x < b.1 + b.2

namespace Mmgmt

variable {s : Mmgmt}

/-- What is true of all blocks of a run, call by call. -/
lemma forall_blocks_iff (P : ℕ × ℕ → Prop) (s : Mmgmt) (ops : List AllocOp) :
    (∀ b ∈ s.blocks ops, P b) ↔
      Run.Along step (fun s op => (s.call op).1 ≠ 0 → P ((s.call op).1.toNat, op.size.toNat)) s
        ops := by
  induction ops generalizing s with
  | nil => exact iff_of_true (fun b hb => absurd hb List.not_mem_nil) trivial
  | cons op ops ih =>
    rw [Run.along_cons, ← ih, blocks]
    split_ifs with hnull
    · exact (and_iff_right fun hne => absurd hnull hne).symm
    · rw [List.forall_mem_cons]
      exact and_congr_left fun _ => ⟨fun h _ => h, fun h => h hnull⟩

/-- **When all blocks lie in the chunk.** -/
lemma Fits32.blocks_inside_iff (h : s.Fits32) (ops : List AllocOp) :
    (∀ b ∈ s.blocks ops, s.start.toNat ≤ b.1 ∧ b.1 + b.2 ≤ s.start.toNat + 4096 * s.len.toNat) ↔
      Run.Along Mmgmt.step RequestFits s ops := by
  rw [forall_blocks_iff]
  have hkept : ∀ (t : Mmgmt) op, (t.Fits32 ∧ t.start = s.start ∧ t.len = s.len) →
      (t.step op).Fits32 ∧ (t.step op).start = s.start ∧ (t.step op).len = s.len := by
    rintro t op ⟨ht, hstart, hlen⟩
    exact ⟨ht.step op, (t.step_start op).trans hstart, (t.step_len op).trans hlen⟩
  refine Run.along_congr hkept (fun t op ht => ?_) ⟨h, rfl, rfl⟩
  obtain ⟨ht, hstart, hlen⟩ := ht
  rw [← contained_iff ht, Contained, hstart, hlen]

/-- Blocks start at pages of the chunk. -/
lemma Fits32.blocks_start (h : s.Fits32) (ops : List AllocOp) :
    ∀ b ∈ s.blocks ops, b.1 ≠ 0 ∧ ∃ c, b.1 = s.start.toNat + 4096 * c := by
  rw [forall_blocks_iff fun b => b.1 ≠ 0 ∧ ∃ c, b.1 = s.start.toNat + 4096 * c]
  refine Run.along_of_invariant_of_forall (I := fun t => t.Fits32 ∧ t.start = s.start)
    (fun t op ht => ⟨ht.1.step op, (t.step_start op).trans ht.2⟩) (fun t op ht hne => ?_)
    ⟨h, rfl⟩ ops
  obtain ⟨-, hc⟩ | ⟨hlt, -, hc⟩ := call_cases t op
  · exact absurd (by rw [hc]) hne
  · refine ⟨toNat_ne_zero.mpr hne, t.counter.toNat, ?_⟩
    rw [hc, ← ht.2]
    exact ht.1.addr hlt

/-- From the next page on every byte of the chunk is in the block of a request that fits, unless
that page is at address `0`. -/
lemma Fits32.exists_request (h : s.Fits32) (hnull : ¬(s.start = 0 ∧ s.counter = 0)) {x : ℕ}
    (hlo : s.start.toNat + 4096 * s.counter.toNat ≤ x)
    (hhi : x < s.start.toNat + 4096 * s.len.toNat) :
    ∃ op, s.RequestFits op ∧ ∃ b ∈ s.blocks [op], b.1 ≤ x ∧ x < b.1 + b.2 := by
  have hfits := h
  rw [Fits32] at hfits
  let size := x - (s.start.toNat + 4096 * s.counter.toNat) + 1
  have hnat : ¬(s.start.toNat = 0 ∧ s.counter.toNat = 0) := by
    rwa [← UInt32.toNat_inj, ← UInt32.toNat_inj, UInt32.toNat_zero] at hnull
  have hsize : (UInt32.ofNat size).toNat = size := toNat_ofNat_of_lt (by omega)
  have hlt : s.counter < s.len := by
    rw [UInt32.lt_iff_toNat_lt]
    omega
  have hne : UInt32.ofNat size ≠ 0 := by
    rw [← toNat_ne_zero, hsize]
    omega
  refine ⟨.mmgmtAlloc (UInt32.ofNat size), fun _ _ _ => ?_,
    (s.start.toNat + 4096 * s.counter.toNat, size), ?_, hlo, by omega⟩
  · show (UInt32.ofNat size).toNat ≤ _
    omega
  · obtain ⟨hfull | hzero, -⟩ | ⟨-, -, hc⟩ := call_cases s (.mmgmtAlloc (UInt32.ofNat size))
    · exact absurd hlt (UInt32.not_lt.mpr hfull)
    · exact absurd hzero hne
    · have haddr := h.addr hlt
      have hcall : (s.call (.mmgmtAlloc (UInt32.ofNat size))).1 ≠ 0 := by
        rw [hc, ← toNat_ne_zero, haddr]
        omega
      rw [blocks, if_neg hcall, hc, blocks, List.mem_singleton]
      exact Prod.ext haddr.symm hsize.symm

/-- **What memory can be given out**: the chunk, but for a page at address `0`. -/
lemma Fits32.reaches_iff (h : s.Fits32) (hcounter : s.counter = 0) {x : ℕ} :
    s.Reaches x ↔ s.start.toNat ≤ x ∧ x < s.start.toNat + 4096 * s.len.toNat ∧
      (s.start = 0 → 4096 ≤ x) := by
  constructor
  · rintro ⟨ops, hfit, b, hb, hbx, hxb⟩
    have hin := (h.blocks_inside_iff ops).mpr hfit b hb
    obtain ⟨hne, c, hc⟩ := h.blocks_start ops b hb
    refine ⟨by omega, by omega, fun hzero => ?_⟩
    rw [hzero, UInt32.toNat_zero] at hc
    omega
  · rintro ⟨hlo, hhi, hpage⟩
    have h0 : s.counter.toNat = 0 := by rw [hcounter, UInt32.toNat_zero]
    by_cases hzero : s.start = 0
    · -- the first request gets the page at address 0
      have hx := hpage hzero
      have hroom : s.counter < s.len := by
        rw [UInt32.lt_iff_toNat_lt, h0]
        rw [hzero, UInt32.toNat_zero] at hhi
        omega
      have hone : (1 : LONG).toNat = 1 := rfl
      have hstep : (s.step (.mmgmtAlloc 1)).counter.toNat = 1 := by
        obtain ⟨hfull | hsize, -⟩ | ⟨hlt, -, hc⟩ := call_cases s (.mmgmtAlloc 1)
        · exact absurd hroom (UInt32.not_lt.mpr hfull)
        · exact absurd hsize (by decide)
        · rw [Mmgmt.step, hc]
          exact (h.counter hlt 1).trans (by omega)
      have hnull : (s.call (.mmgmtAlloc 1)).1 = 0 := by
        obtain ⟨-, hc⟩ | ⟨-, -, hc⟩ := call_cases s (.mmgmtAlloc 1)
        · rw [hc]
        · rw [hc, hzero, hcounter, UInt32.zero_mul, UInt32.add_zero]
      obtain ⟨op, hfit, b, hb, hin⟩ := (h.step (.mmgmtAlloc 1)).exists_request (x := x)
        (fun hboth => by rw [hboth.2, UInt32.toNat_zero] at hstep; omega)
        (by rw [step_start, hstep, hzero, UInt32.toNat_zero]; omega)
        (by rw [step_start, step_len]; exact hhi)
      refine ⟨[.mmgmtAlloc 1, op], ⟨fun _ _ hne => absurd ⟨hzero, hcounter⟩ hne, hfit, trivial⟩,
        b, ?_, hin⟩
      rw [blocks, if_pos hnull]
      exact hb
    · obtain ⟨op, hfit, b, hb, hin⟩ := h.exists_request (fun hboth => hzero hboth.1)
        (by rw [h0]; exact hlo) hhi
      exact ⟨[op], ⟨hfit, trivial⟩, b, hb, hin⟩

end Mmgmt

/-! ## After booting -/

/-- The region is available, and has a page at least. -/
def MmapEntry.Usable (e : MmapEntry) : Prop :=
  e.type = MULTIBOOT_MEMORY_AVAILABLE ∧ 4096 ≤ e.len.toNat

instance (e : MmapEntry) : Decidable e.Usable := inferInstanceAs (Decidable (_ ∧ _))

instance (e : MmapEntry) : Decidable e.Below4G := inferInstanceAs (Decidable (_ ≤ _))

/-- What `malloc` does with a region. Whatever is called, with sizes that do not wrap around when
they are rounded up, blocks are disjoint; they all lie in the whole pages of the region iff every
request fits in what is left of it; and the bytes that are in some block of some run whose requests
fit are those of these pages, but for a page at address `0`. -/
structure Mmgmt.GivesOut (s : Mmgmt) (e : MmapEntry) : Prop where
  disjoint : ∀ ops, (∀ op ∈ ops, op.size.toNat < 2 ^ 32 - 4096) →
    (s.blocks ops).Pairwise fun b c => b.1 + b.2 ≤ c.1 ∨ c.1 + c.2 ≤ b.1
  inside_iff : ∀ ops, (∀ b ∈ s.blocks ops, e.addr.toNat ≤ b.1 ∧
      b.1 + b.2 ≤ e.addr.toNat + e.len.toNat / 4096 * 4096) ↔
    Run.Along Mmgmt.step Mmgmt.RequestFits s ops
  reaches_iff : ∀ x, s.Reaches x ↔ e.Given x

/-- The allocator that is set up from a map gives out the longest region. -/
lemma mmgmtInit_givesOut {mmap : ℕ → MmapEntry} {n : Int32}
    (hlow : ∀ i < n.toNatClampNeg, (mmap i).Below4G ∧ (mmap i).len.toNat < 2 ^ 32)
    (hsome : ∃ i < n.toNatClampNeg, (mmap i).Usable) :
    ∃ j < n.toNatClampNeg, (mmap j).Available ∧
      (∀ i < n.toNatClampNeg, (mmap i).Available → (mmap i).len.toNat ≤ (mmap j).len.toNat) ∧
      (mmgmtInit mmap n).GivesOut (mmap j) := by
  obtain ⟨i₀, hi₀, havail₀, hpage₀⟩ := hsome
  have hne₀ : (mmap i₀).len ≠ 0 := by
    intro hzero
    rw [hzero, UInt64.toNat_zero] at hpage₀
    omega
  obtain ⟨htaken, hlen⟩ := mmgmtGreatestChunk_taken ⟨i₀, hi₀, havail₀, hne₀⟩
  obtain ⟨j, hj⟩ : ∃ j, j = (mmgmtGreatestChunk mmap n).1.toNat := ⟨_, rfl⟩
  rw [← hj] at htaken hlen
  have hjlt := htaken.counted.lt
  have hcounted : ∀ i < n.toNatClampNeg, (mmap i).Available → Counted mmap n.toNatClampNeg i :=
    fun i hi havail => ⟨hi, havail, fun t _ ht _ => (hlow t ht).2⟩
  have hlongest : ∀ i < n.toNatClampNeg, (mmap i).Available →
      (mmap i).len.toNat ≤ (mmap j).len.toNat := by
    intro i hi havail
    have hle := htaken.longest i (hcounted i hi havail)
    rwa [MmapEntry.lowLen_of_lt (hlow i hi).2, MmapEntry.lowLen_of_lt (hlow j hjlt).2] at hle
  refine ⟨j, hjlt, htaken.counted.available, hlongest, ?_⟩
  obtain ⟨hbelow, hshort⟩ := hlow j hjlt
  rw [MmapEntry.Below4G] at hbelow
  have hpage := hpage₀.trans (hlongest i₀ hi₀ havail₀)
  have hfits : (mmgmtInit mmap n).Fits32 := mmgmtInit_fits32 fun i hi => (hlow i hi).1
  have hs : (mmgmtInit mmap n).start.toNat = (mmap j).addr.toNat := by
    rw [mmgmtInit_start, ← hj, Nat.mod_eq_of_lt (by omega)]
  have hl : (mmgmtInit mmap n).len.toNat = (mmap j).len.toNat / 4096 := by
    rw [mmgmtInit_len, hlen, MmapEntry.lowLen_of_lt hshort]
  refine ⟨fun ops hsize => (hfits.blocks_spec ops hsize).1, fun ops => ?_, fun x => ?_⟩
  · rw [← hfits.blocks_inside_iff, hs, hl, Nat.mul_comm]
  · have hzero : (mmgmtInit mmap n).start = 0 ↔ (mmap j).addr = 0 := by
      rw [← UInt32.toNat_inj, ← UInt64.toNat_inj, hs]
      rfl
    rw [hfits.reaches_iff rfl, MmapEntry.Given, hs, hl, hzero, Nat.mul_comm]

/-- **What memory is given out after booting.** Let the boot loader lay out any tags below 4 GiB,
the last memory map among them having regions below 4 GiB, one of them available and of a page at
least. Then `multiboot_process` ends, and the allocator gives out the longest available region: its
blocks are disjoint, they lie in the pages of the region iff the requests fit, and no memory of it
is set aside. A byte, such as one of the kernel itself, is in a block of some run of requests that
fit iff it is in the pages of that region and not at address `0`.

**Proof sketch.** The walk over the tags leaves the allocator as the last memory map has set it up.
If memory is in the region, a first request that reaches up to it fits, and its block begins at the
start of the region, or with the second page if that is at address `0`. -/
theorem boot_heap_iff {mem : ℕ → BYTE} {address : LONG} {hdr : List BYTE} {pre post : List Mb2Tag}
    {t : Mb2Tag} {entries : List (MmapEntry × LONG)} (hhdr : hdr.length = 8)
    (hfits : address.toNat + (mb2Block hdr (pre ++ t :: post)).length ≤ 2 ^ 32)
    (hmem : Holds mem address.toNat (mb2Block hdr (pre ++ t :: post)))
    (hmmap : t.IsMmap entries) (hlast : ∀ t' ∈ post, t'.type ≠ MULTIBOOT_TAG_TYPE_MMAP)
    (hlow : ∀ e ∈ entries, e.1.Below4G ∧ e.1.len.toNat < 2 ^ 32)
    (hsome : ∃ e ∈ entries, e.1.Usable) :
    ∃ e ∈ entries, e.1.Available ∧
      (∀ e' ∈ entries, e'.1.Available → e'.1.len.toNat ≤ e.1.len.toNat) ∧
      ∀ fuel, (pre ++ t :: post).length < fuel → ∀ s, ∃ s',
        multibootProcess mem heapHandlers fuel address s = some s' ∧ s'.GivesOut e.1 := by
  obtain ⟨mmap, n, hn, hentries, hrun⟩ := multibootProcess_heap hhdr hfits hmem hmmap hlast
  have hcount : n.toNatClampNeg = entries.length := by
    rw [Int32.toNatClampNeg, hn, Int.toNat_natCast]
  have hget : ∀ i < n.toNatClampNeg, ∃ e ∈ entries, mmap i = e.1 := by
    intro i hi
    rw [hcount] at hi
    exact ⟨entries[i], List.getElem_mem hi, hentries i hi⟩
  have hindex : ∀ e ∈ entries, ∃ i < n.toNatClampNeg, mmap i = e.1 := by
    intro e he
    obtain ⟨i, hi, rfl⟩ := List.getElem_of_mem he
    exact ⟨i, hcount.symm ▸ hi, hentries i hi⟩
  obtain ⟨j, hj, havail, hlongest, hgives⟩ := @mmgmtInit_givesOut mmap n
    (fun i hi => by
      obtain ⟨e, he, heq⟩ := hget i hi
      rw [heq]
      exact hlow e he)
    (by
      obtain ⟨e, he, husable⟩ := hsome
      obtain ⟨i, hi, heq⟩ := hindex e he
      exact ⟨i, hi, heq ▸ husable⟩)
  obtain ⟨e, he, heq⟩ := hget j hj
  rw [heq] at havail hlongest hgives
  refine ⟨e, he, havail, fun e' he' havail' => ?_, fun fuel hfuel s =>
    ⟨mmgmtInit mmap n, hrun fuel hfuel s, hgives⟩⟩
  obtain ⟨i, hi, heq'⟩ := hindex e' he'
  rw [← heq'] at havail' ⊢
  exact hlongest i hi havail'

/-- With 2 MiB from 1 MiB on, where the kernel is, its first byte is given out, and the byte before
is not. -/
theorem boot_heap_iff_kernel :
    let mem : ℕ → BYTE := fun a =>
      ofList (mb2Block (List.replicate 8 0) ([] ++ sampleMmapTag :: [])) (a - (0x9000 : LONG).toNat)
    ∀ s, ∃ s', multibootProcess mem heapHandlers 2 0x9000 s = some s' ∧ s'.Reaches 0x100000 ∧
      ¬ s'.Reaches 0xFFFFF := by
  intro mem s
  have hlen : (mb2Block (List.replicate 8 0) ([] ++ sampleMmapTag :: [])).length = 56 := by
    simp [mb2Block, Mb2Tag.length_bytes, Mb2Tag.size, sampleMmapTag, mb2End]
  have h9000 : (0x9000 : LONG).toNat = 0x9000 := rfl
  have hmmap : sampleMmapTag.IsMmap [(⟨0x100000, 0x200000, 1⟩, 0)] :=
    ⟨rfl, word32 24 ++ word32 0, by simp, rfl⟩
  obtain ⟨e, he, -, -, hboot⟩ := boot_heap_iff List.length_replicate
    (by rw [hlen, h9000]; omega) (holds_ofList _ _) hmmap (fun t ht => absurd ht List.not_mem_nil)
    (fun e he => by rw [List.mem_singleton.mp he]; decide)
    ⟨_, List.mem_singleton_self _, by decide⟩
  obtain ⟨s', hrun, hgives⟩ := hboot 2 (by simp) s
  rw [List.mem_singleton.mp he] at hgives
  refine ⟨s', hrun, (hgives.reaches_iff _).mpr (by decide), fun hreach => ?_⟩
  exact absurd ((hgives.reaches_iff _).mp hreach) (by decide)

end Korolev
